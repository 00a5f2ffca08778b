import Runbook.Kernel.Action
import Runbook.Shell.Arithmetic

/-!
What a shell does: steps that read and change its state, may leave what they stand in, and may ask the
system. A step is given what comes behind it, so that other processes can run between two requests.
-/
namespace Runbook.Shell
open Kernel

/-- Why a command does not go on behind itself: it leaves loops, a function or the shell, or what is
read of a text is given up, all of it or up to the next line. -/
inductive Jump where
  | leaveLoop (depth : Nat)
  | nextRound (depth : Nat)
  | leaveFunction
  | leaveShell
  | abort
  | discard

def ShellM (α : Type) : Type := State → (Except Jump α → State → Action) → Action

namespace ShellM

instance : Monad ShellM where
  pure a := fun s k => k (.ok a) s
  bind m f := fun s k => m s fun r s =>
    match r with
    | .ok a => f a s k
    | .error j => k (.error j) s

instance : MonadStateOf State ShellM where
  get := fun s k => k (.ok s) s
  set s := fun _ k => k (.ok ()) s
  modifyGet f := fun s k =>
    let (a, s) := f s
    k (.ok a) s

def jump {α : Type} (j : Jump) : ShellM α := fun s k => k (.error j) s

def attempt {α : Type} (m : ShellM α) : ShellM (Except Jump α) := fun s k => m s fun r s => k (.ok r) s

def resume {α : Type} (r : Except Jump α) : ShellM α := fun s k => k r s

def after {α : Type} (m : ShellM α) (last : ShellM Unit) : ShellM α := do
  let r ← attempt m
  last
  resume r

def lift {α : Type} (p : Proc α) : ShellM α := fun s k => p s.pid fun a => k (.ok a) s

def call {α : Type} (s : Nat → Sys α) : ShellM (Except Fault α) := lift (Proc.call s)

def tell (s : Nat → Sys Unit) : ShellM Unit := do
  let _ ← call s

def setStatus (n : Nat) : ShellM Unit := modify fun s => { s with status := n }

def fork (child : ShellM Unit) : ShellM Nat := fun s k =>
  .fork (fun pid => child { s with pid := pid } fun _ s => .finish (.exited s.status)) fun pid => k (.ok pid) s

def finish {α : Type} (e : Ending) : ShellM α := fun _ _ => .finish e

/-! Output. -/

def write (fd : Nat) (t : Text) : ShellM (Except Fault Unit) := lift (Proc.write fd t)

def report (t : Text) : ShellM Unit := do
  let s ← get
  let _ ← write 2 (s.file ++ ": line " ++ Text.ofNat s.line ++ ": " ++ t ++ ['\n'])

def complain (command t : Text) : ShellM Unit := report (command ++ ": " ++ t)

def reportNotes : ShellM Unit := do
  match (← get).notes with
  | [] => return ()
  | notes =>
    modify fun s => { s with notes := [] }
    for t in notes do
      report t

def giveUp {α : Type} (status : Nat) (t : Text) : ShellM α := do
  report t
  setStatus status
  jump .discard

def abandon {α : Type} (t : Text) : ShellM α := do
  report t
  setStatus 1
  jump .abort

def concat {α β : Type} (f : α → ShellM (List β)) : List α → ShellM (List β)
  | [] => return []
  | a :: rest => do
    let bs ← f a
    let more ← concat f rest
    return bs ++ more

def each {α β : Type} (f : α → ShellM β) : List α → ShellM (List β)
  | [] => return []
  | a :: rest => do
    let b ← f a
    let bs ← each f rest
    return b :: bs

/-- What is said of a mistake in an expression. Only of a protected variable is it said without the
name of the command. -/
def mistakeText (name : Text) : ArithError → Text
  | .refused (.readonly x) => (State.Refusal.readonly x).message
  | e => if name = [] then e.message else name ++ ": " ++ e.message

def evaluateFor (name : Text) (t : Text) : ShellM Int := do
  let (r, s) := (← get).evaluate t
  set s
  reportNotes
  match r with
  | .ok n => return n
  | .error (.unbound x) => abandon (x ++ ": unbound variable")
  | .error e => giveUp 1 (mistakeText name e)

def tryEvaluate (name : Text) (t : Text) : ShellM (Option Int) := do
  let (r, s) := (← get).evaluate t
  set s
  reportNotes
  match r with
  | .ok n => return some n
  | .error (.unbound x) => abandon (x ++ ": unbound variable")
  | .error e =>
    report (mistakeText name e)
    return none

def evaluate (t : Text) : ShellM Int := do evaluateFor (← get).label t

def failWith (status : Nat) (t : Text) : ShellM Unit := do
  report t
  setStatus status

end ShellM

end Runbook.Shell
