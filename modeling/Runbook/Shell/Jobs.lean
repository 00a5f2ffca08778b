import Runbook.Shell.Engine

/-!
Processes that the shell has started: those it waits for, and jobs that run beside it.
-/
namespace Runbook.Shell
open ShellM Kernel

variable (s : State)

namespace Jobs

/-! Wording. -/

def stateWidth : Nat := 24

def padState (t : Text) : Text := t ++ List.replicate (stateWidth - t.length) ' '

def stateText : JobState → Text
  | .running => "Running"
  | .ended (.exited 0) => "Done"
  | .ended (.exited n) => "Exit " ++ Text.ofNat n
  | .ended (.signaled n) => Signal.description n

def isQuiet (signal : Nat) : Bool :=
  signal == Kernel.Signal.interrupt || signal == Kernel.Signal.terminate || signal == Signal.brokenPipe

def reportSignal (isForeground : Bool) (pid signal : Nat) (text : Text) : ShellM Unit := do
  let s ← get
  if !isQuiet signal ∧ !(s.traps.any (·.1 = .signal signal)) then
    let number := Text.ofNat pid
    let _ ← write 2 (s.file ++ ": line " ++ Text.ofNat (max s.line 1) ++ ": " ++
      List.replicate (5 - number.length) ' ' ++ number ++ ' ' :: padState (Signal.description signal) ++ text ++ ['\n'])
  else if isForeground ∧ signal = Kernel.Signal.terminate then
    let _ ← write 2 (Signal.description signal ++ ['\n'])

/-! The list of jobs. -/

def add (pids : List Nat) (text : Text) : ShellM Unit :=
  modify fun s =>
    let number := (s.jobs.map (·.number)).foldl max 0 + 1
    { s with jobs := s.jobs ++ [{ number := number, pids := pids, text := text }] }

def current? : Option Job := s.jobs.getLast?

def previous? : Option Job := s.jobs.dropLast.getLast?

def mark (j : Job) : Char :=
  if (current? s).map (·.number) = some j.number then '+'
  else if (previous? s).map (·.number) = some j.number then '-'
  else ' '

def line (withPid : Bool) (j : Job) : Text :=
  let number := '[' :: Text.ofNat j.number ++ [']', mark s j]
  let pid : Text := if withPid then ' ' :: Text.ofNat (j.pids.headD 0) ++ [' '] else "  "
  number ++ pid ++ padState (stateText j.state) ++ j.text ++ (if j.state = .running then " &".toList else []) ++ ['\n']

def ofText? (t : Text) : Option Job :=
  match t with
  | [] | ['%'] | ['+'] => current? s
  | ['-'] => (previous? s).or (current? s)
  | '?' :: part => s.jobs.find? fun j => Text.contains part j.text
  | _ =>
    if t.all Char.isDigit then s.jobs.find? (·.number = State.decimal t)
    else s.jobs.find? fun j => Text.startsWith j.text t

def notify : ShellM Unit := do
  Engine.collect
  let ended := (← get).jobs.filterMap fun j =>
    match j.state with
    | .ended (.signaled n) => some (j, n)
    | _ => none
  if ended ≠ [] then
    for (j, n) in ended do
      reportSignal false (j.pids.getLastD 0) n j.text
    modify fun s => { s with jobs := s.jobs.filter fun j => !(j.state matches .ended (.signaled _)) }

/-! Waiting. -/

def waitForeground (pid : Nat) (text : Text) : ShellM Nat := do
  let ending ← Engine.waitFor pid
  match ending with
  | .signaled n => reportSignal true pid n text
  | .exited _ => pure ()
  notify
  return ending.status

/-- What a wait comes to: an end, a signal that the shell has a trap for, or nothing to wait for. -/
inductive Waited where
  | ended (pid : Nat) (e : Ending)
  | interrupted (signal : Nat)
  | nothing

def waitAny (pids : List Nat) : ShellM Waited := do
  let s ← get
  match pids.findSome? fun pid => (s.ended.lookup pid).map (pid, ·) with
  | some (pid, status) => return .ended pid (.exited status)
  | none =>
    let r ← lift (Proc.await fun own => do
      let p ← Sys.process own
      match p.pending.find? fun n => p.dispositions.lookup n = some .caught && n ≠ Signal.child with
      | some n => return some (Waited.interrupted n)
      | none =>
        let ended ← Sys.endedChildren own
        match ended.find? fun (pid, _) => pid ∈ pids with
        | some (pid, e) =>
          Sys.reap pid
          return some (.ended pid e)
        | none =>
          let alive := (← get).processes.any fun (pid, q) => pid ∈ pids && q.parent = own
          if alive then return none else return some .nothing)
    match r with
    | .ok (.ended pid e) =>
      modify fun s =>
        { s with
          ended := (pid, e.status) :: s.ended
          jobs := s.jobs.map fun j => if j.pids.getLast? = some pid then { j with state := .ended e } else j }
      Engine.forgetCoprocesses [pid]
      return .ended pid e
    | .ok w => return w
    | .error _ => return .nothing

def isKnown (pid : Nat) : Bool :=
  (s.ended.lookup pid).isSome || s.jobs.any fun j => pid ∈ j.pids

def forget (number : Nat) : ShellM Unit := modify fun s => { s with jobs := s.jobs.filter (·.number ≠ number) }

end Jobs

end Runbook.Shell
