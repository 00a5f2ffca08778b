import Runbook.ExitStatus
import Runbook.LineBuffer
import Runbook.Progress
import Runbook.RunRecord

/-!
A run as it is watched: lines of the script's error stream are step events, which move the tree and
the record, or diagnostics, which are passed on and kept for the report.
-/
namespace Runbook

/-- What is known of a run while it goes on. `entry` is the symbol of the module that is run. -/
structure Session where
  entry : Text
  tree : RunTree
  progress : Progress
  record : RunRecord
  lines : LineBuffer := {}
  diagnostics : Text := []
deriving DecidableEq, Repr

inductive Arrival where
  | output (chunk : Bytes)
  | errors (chunk : Bytes)
  | errorsClosed
  | tick
deriving DecidableEq, Repr

namespace Session

def start (s : Session) : Session × Written :=
  let (p, w) := s.progress.start s.tree
  ({ s with progress := p }, w)

/-- A step has started or ended. Events of the root, and events that no pending row waits for, leave
the tree alone. -/
def stepEvent (s : Session) (e : Event) : Session × Written :=
  let s := { s with record := s.record.record e }
  if e.isRoot s.entry then (s, {})
  else
    match s.tree.findPending e.step.1 e.step.2, e.phase with
    | none, _ => (s, {})
    | some index, .start =>
      let (p, w) := s.progress.stepStarted s.tree index
      ({ s with progress := p }, w)
    | some index, .finish =>
      let tree := s.tree.resolve index (e.exitStatus = 0) e.elapsedSecs
      let (p, w) := s.progress.stepFinished tree index
      ({ s with tree := tree, progress := p }, w)

def errorLine (secs : Nat) (s : Session) (line : Text) : Session × Written :=
  match Event.parse line with
  | some e => s.stepEvent e
  | none =>
    let (p, w) := s.progress.diagnostic s.tree line secs
    ({ s with diagnostics := s.diagnostics ++ line ++ ['\n'], progress := p }, w)

def errorLines (secs : Nat) : Session → List Text → Session × Written
  | s, [] => (s, {})
  | s, line :: rest =>
    let (s, w) := s.errorLine secs line
    let (s, more) := errorLines secs s rest
    (s, w ++ more)

/-- Takes what has arrived; `secs` counts from the start of the running step. -/
def receive (secs : Nat) (s : Session) : Arrival → Session × Written
  | .output chunk =>
    let (p, w) := s.progress.childOutput s.tree chunk secs
    ({ s with progress := p }, w)
  | .errors chunk =>
    let (found, buffer) := s.lines.push chunk
    errorLines secs { s with lines := buffer } found
  | .errorsClosed =>
    let (last, buffer) := s.lines.finish
    errorLines secs { s with lines := buffer } last.toList
  | .tick =>
    let (p, w) := s.progress.tick s.tree secs
    ({ s with progress := p }, w)

def receiveAll : Session → List (Nat × Arrival) → Session × Written
  | s, [] => (s, {})
  | s, (secs, arrival) :: rest =>
    let (s, w) := s.receive secs arrival
    let (s, more) := s.receiveAll rest
    (s, w ++ more)

/-- What a failure report says: the end of the diagnostics, or the signal if there are none. -/
def summary (s : Session) (status : ExitStatus) : Text :=
  match status with
  | .signaled n =>
    if s.diagnostics.trim = [] then "Process terminated by signal " ++ Text.ofNat n
    else summarize s.diagnostics
  | _ => summarize s.diagnostics

def conclude (s : Session) (status : ExitStatus) (ms : Nat) (files : FileTree) : Session × Written :=
  let success := status.code = 0
  let (p, tree, settled) := s.progress.finish s.tree success
  let s := { s with progress := p, tree := tree }
  if success then (s, settled ++ p.pass ms)
  else
    let (out, err) := s.record.failureFiles files
    (s, settled ++ p.fail ms (s.summary status) (some ⟨s.record.dir, out, err⟩))

end Session

end Runbook
