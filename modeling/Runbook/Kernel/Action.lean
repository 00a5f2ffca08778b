import Runbook.Kernel.World

/-!
What a process does: steps that look at the world and change it or wait for it, starting another process, or
ending.
-/
namespace Runbook.Kernel

/-- The rest of a process. An attempt that gives none is made again later. -/
inductive Action where
  | finish (ending : Ending)
  | attempt (step : World → Option (World × Action))
  | fork (child next : Nat → Action)

def Proc (α : Type) : Type := Nat → (α → Action) → Action

namespace Proc

instance : Monad Proc where
  pure a := fun _ k => k a
  bind p f := fun pid k => p pid fun a => f a pid k

def self : Proc Nat := fun pid k => k pid

def exit {α : Type} (status : Nat) : Proc α := fun _ _ => .finish (.exited status)

def call {α : Type} (s : Nat → Sys α) : Proc (Except Fault α) := fun pid k =>
  .attempt fun w =>
    let (answer, w) := (s pid).run.run w
    some (w, k answer)

def await {α : Type} (s : Nat → Sys (Option α)) : Proc (Except Fault α) := fun pid k =>
  .attempt fun w =>
    match (s pid).run.run w with
    | (.ok none, _) => none
    | (.ok (some a), w) => some (w, k (.ok a))
    | (.error e, w) => some (w, k (.error e))

def look {α : Type} (f : World → α) : Proc α := fun _ k => .attempt fun w => some (w, k (f w))

def fork (child : Proc Unit) : Proc Nat := fun _ k =>
  .fork (fun pid => child pid fun _ => .finish (.exited 0)) k

def opening {α : Type} (path : Text) (access : Access) (s : Nat → Sys α) : Proc (Except Fault α) := do
  let side ← call fun pid => Sys.side? pid path access
  match ← call s with
  | .error f => return .error f
  | .ok a =>
    match side with
    | .ok (some (p, before)) =>
      let _ ← await fun _ => do
        if ← Sys.hasOther access p before then return some () else return (none : Option Unit)
      return .ok a
    | _ => return .ok a

def read (fd count : Nat) : Proc (Except Fault Text) := await fun pid => Sys.read pid fd count

def readThrough (fd : Nat) (stop : Char) (count : Nat) : Proc (Except Fault Text) :=
  await fun pid => Sys.readThrough pid fd stop count

def blockSize : Nat := 65536

def readAllFrom : Nat → Nat → List Text → Proc (Except Fault Text)
  | 0, _, got => return .ok got.reverse.flatten
  | fuel + 1, fd, got => do
    match ← read fd blockSize with
    | .ok [] => return .ok got.reverse.flatten
    | .ok t => readAllFrom fuel fd (t :: got)
    | .error e => return .error e

def blockLimit : Nat := 4096

def readAll (fd : Nat) : Proc (Except Fault Text) := readAllFrom blockLimit fd []

def writeFrom : Nat → Nat → Text → Proc (Except Fault Unit)
  | 0, _, _ => return .ok ()
  | fuel + 1, fd, t => do
    if t = [] then return .ok ()
    match ← await fun pid => Sys.write pid fd t with
    | .ok n => if n < t.length then writeFrom fuel fd (t.drop n) else return .ok ()
    | .error e => return .error e

def write (fd : Nat) (t : Text) : Proc (Except Fault Unit) := writeFrom (t.length + 1) fd t

def sleep (millis : Nat) : Proc Unit := do
  let moment ← look fun w => w.clock.millis + millis
  let _ ← call fun pid => Sys.modifyProcess pid fun p => { p with wakeAt := some moment }
  let _ ← await fun _ => do
    if moment ≤ (← get).clock.millis then return some () else return (none : Option Unit)
  let _ ← call fun pid => Sys.modifyProcess pid fun p => { p with wakeAt := none }
  return ()

/-- Makes a request that may have to wait, but not longer than some milliseconds. None if the time is
up. -/
def awaitWithin {α : Type} (millis : Nat) (s : Nat → Sys (Option α)) : Proc (Except Fault (Option α)) := do
  let moment ← look fun w => w.clock.millis + millis
  let _ ← call fun pid => Sys.modifyProcess pid fun p => { p with wakeAt := some moment }
  let r ← await fun pid => do
    match ← s pid with
    | some a => return some (some a)
    | none => if moment ≤ (← get).clock.millis then return some none else return none
  let _ ← call fun pid => Sys.modifyProcess pid fun p => { p with wakeAt := none }
  return r

end Proc

end Runbook.Kernel
