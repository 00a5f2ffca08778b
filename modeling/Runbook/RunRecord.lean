import Runbook.Event
import Runbook.FileTree

/-!
What is remembered of a run: its identity, its directory and the captured output of its steps.
-/
namespace Runbook

structure StepLog where
  func : Text
  status : Int
  outFile : Path
  errFile : Path
deriving DecidableEq, Repr

/-- A run, with the logs of its steps in the order in which they ended. -/
structure RunRecord where
  id : Text
  dir : Path
  logs : List StepLog := []
deriving DecidableEq, Repr

namespace RunRecord

def env (r : RunRecord) : List (Text × Text) :=
  [("JAIPH_RUN_DIR", r.dir.text), ("JAIPH_RUN_ID", r.id)]

def record (r : RunRecord) (e : Event) : RunRecord :=
  match e.phase, e.outFile, e.errFile with
  | .finish, some out, some err =>
    { r with logs := r.logs ++ [⟨e.func, e.exitStatus, ⟨out⟩, ⟨err⟩⟩] }
  | _, _, _ => r

/-- Order of file names, with a path that has none first. -/
def nameLe (a b : Option Text) : Bool :=
  match a, b with
  | none, _ => true
  | some _, none => false
  | some a, some b => a.le b

/-- The log with the greatest name of its output file; of equals the last. -/
def latest : List StepLog → Option StepLog
  | [] => none
  | log :: rest =>
    match latest rest with
    | some other => if nameLe log.outFile.fileName other.outFile.fileName then some other else some log
    | none => some log

def names (r : RunRecord) (t : FileTree) : List Text :=
  match t.stat r.dir with
  | .ok (.dir children) => children.map (·.1)
  | _ => []

/-- The greatest name in the directory of the run that ends in `tail`. -/
def newest (r : RunRecord) (t : FileTree) (tail : Text) : Option Path :=
  let found := ((r.names t).mergeSort Text.le).filter (·.endsWith tail)
  found.getLast?.map r.dir.push

/-- The files to look at after a failure: those of the failed step that started last, or else the
newest in the directory of the run. -/
def failureFiles (r : RunRecord) (t : FileTree) : Option Path × Option Path :=
  match latest (r.logs.filter (·.status ≠ 0)) with
  | some log => (some log.outFile, some log.errFile)
  | none => (r.newest t ".out", r.newest t ".err")

end RunRecord

end Runbook
