import Runbook.Build
import Runbook.Config
import Runbook.Isolation
import Runbook.Machine
import Runbook.Session

/-!
Running the root workflow of a source file: compiling it with everything it imports, starting the
shell on the script, and watching the steps.
-/
namespace Runbook

/-- What is to be run. Without a target the scripts go to a directory that is removed afterwards. -/
structure RunRequest where
  entry : Path
  target : Option Path
  args : List Text

structure Surroundings where
  env : Env
  clock : Instant
  runId : Text
  scratchName : Text
  host : Isolation.Host

inductive RunError where
  | compile (cause : CompileError)
  | notAFile (path : Path)
  | missingWorkflow
  | scratch (path : Path) (cause : FileError)
  | files (cause : FileError)
deriving DecidableEq, Repr

def RunError.message : RunError → Text
  | compile cause => cause.message
  | notAFile path => "jaiph run expects a single .jph file: " ++ path.text
  | missingWorkflow => "jaiph run requires workflow 'default' in the input file"
  | scratch path cause => cause.message ++ " at path \"" ++ path.text ++ "\""
  | files cause => cause.message

abbrev RunM := ExceptT RunError (StateM FileTree)

namespace Run

/-- The shell text that loads a script and calls its root workflow. Its arguments are the script, the
symbol of the module and the arguments of the workflow. Descriptor 3 carries events. -/
def launcher : Text :=
  Text.unlines
    [ "built_script=\"$1\"", "shift", "workflow_symbol=\"$1\"", "shift", "exec 3>&2",
      "export JAIPH_EVENT_FD=3", "source \"$built_script\"",
      "entrypoint=\"$\x7bworkflow_symbol\x7d__workflow_default\"",
      "if ! declare -F \"$entrypoint\" >/dev/null; then",
      "  echo \"jaiph run requires workflow 'default' in the input file\" >&2", "  exit 1", "fi",
      "if [[ \"$\x7bJAIPH_DEBUG:-\x7d\" == \"true\" ]]; then", "  set -x", "fi", "set +e",
      "\"$entrypoint\" \"$@\"", "status=$?", "exit \"$status\"", [] ]

def launcherName : Text := "jaiph-run"

def look {α : Type} (f : FileTree → Except RunError α) : RunM α := fun t => (f t, t)

def ofBuild {α : Type} (b : BuildM α) : RunM α := fun t =>
  match b.run t with
  | (.ok a, t) => (.ok a, t)
  | (.error e, t) => (.error (.compile e), t)

def createScratch (s : Surroundings) : RunM Path := do
  let t ← get
  let base : Path := ⟨(s.env.get? "TMPDIR").getD "/tmp"⟩
  let dir := (t.cwd.join base).push ("jaiph-run-" ++ s.scratchName)
  match (t.locate dir).bind fun _ => if t.isDir (t.cwd.join base) then (t.createDirs dir).mapError Prod.fst
    else .error .notFound with
  | .ok t =>
    set t
    return dir
  | .error e => throw (.scratch dir e)

def createRecord (s : Surroundings) (runsDir : Path) : RunM RunRecord := do
  let dir := runsDir.push (s.clock.dateTime.dashed ++ "-" ++ s.runId)
  match (← get).createDirs dir with
  | .ok t =>
    set t
    return { id := s.runId, dir := dir }
  | .error (e, t) =>
    set t
    throw (.files e)

def shellEnv (s : Surroundings) (config : Config) (workspace outDir : Path) (record : RunRecord) : Env :=
  let added := config.runtimeEnv workspace s.env ++ record.env
  let library : Env :=
    if (s.env.get? "JAIPH_STDLIB").isSome then [] else [("JAIPH_STDLIB", (outDir.push libraryName).text)]
  let isolation := Isolation.choose (s.env.get? "JAIPH_ISOLATION") s.host
  let own := [("JAIPH_ISOLATION".toList, isolation.mode)] ++ library ++ added
  let dropped : List Text := ["JAIPH_PRECEDING_FILES", "JAIPH_EVENT_FD"]
  let kept := s.env.filter fun (name, _) => name ∉ dropped ∧ (own.lookup name).isNone
  own ++ kept

/-- How the shell is started: with the launcher, on a script, the symbol of its module and the arguments
of the workflow. -/
def shellStart (env : Env) (workspace : Path) (args : List Text) (clock : Instant) (files : FileTree) :
    Machine.Start :=
  { files := files
    cwd := workspace
    env := env
    args := "bash" :: "-c" :: launcher :: launcherName :: args
    clock := clock }

def statusOf : Kernel.Ending → ExitStatus
  | .exited n => .exited n
  | .signaled n => .signaled n

def arrivals (o : Machine.Outcome) : List (Nat × Arrival) :=
  let chunks := o.written.map fun (isError, bytes) =>
    (0, if isError then Arrival.errors bytes else .output bytes)
  chunks ++ [(0, .errorsClosed)]

def runIn (s : Surroundings) (request : RunRequest) (entry outDir : Path) (workspace : Path)
    (config : Config) (m : Module) : RunM (ExitStatus × Written) := do
  let outputs ← ofBuild (Build.buildWithImports entry outDir)
  if (m.workflow? rootWorkflow).isNone then throw .missingWorkflow
  let entryDir := entry.parent.getD ⟨[]⟩
  let symbol := Layout.symbol ⟨(← get).cwd, entryDir⟩ entry
  let record ← createRecord s (config.runsDir workspace (s.env.get? "JAIPH_RUNS_DIR"))
  let session : Session :=
    { entry := symbol, tree := RunTree.ofModule m, progress := ⟨false, false, none⟩, record := record }
  let (session, opening) := session.start
  let script := (outputs.head?.map (·.output)).getD ⟨[]⟩
  let files ← get
  let outcome := Machine.run (shellStart (shellEnv s config workspace outDir record) workspace
    (script.text :: symbol :: request.args) s.clock files)
  let status := statusOf outcome.ending
  set outcome.files
  let (session, shown) := session.receiveAll (arrivals outcome)
  let (_, closing) := session.conclude status (outcome.clock.millis - s.clock.millis) outcome.files
  return (status, opening ++ shown ++ closing)

/-- Runs a source file. A directory for the scripts that was made for the run does not stay. -/
def run (s : Surroundings) (request : RunRequest) : RunM (ExitStatus × Written) := do
  let cwd := (← get).cwd
  let entry := request.entry.resolve cwd
  if !(← get).isFile entry || !entry.isSource then throw (.notAFile entry)
  let workspace := workspaceRoot (← get) (entry.parent.getD ⟨[]⟩)
  let config := Config.load (← get) s.env workspace
  let m ← look fun t => (t.readModule entry).mapError .compile
  match request.target with
  | some target => runIn s request entry (target.resolve cwd) workspace config m
  | none =>
    let scratch ← createScratch s
    let remove : RunM Unit := modify fun t => (t.remove scratch).toOption.getD t
    tryCatch
      (do
        let result ← runIn s request entry scratch workspace config m
        remove
        return result)
      fun e => do
        remove
        throw e

end Run

end Runbook
