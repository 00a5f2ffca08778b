import Runbook.Scaffold
import Runbook.Toml.Document

/-!
Configuration: a file of the user and a file of the workspace, the second overriding the first key by
key, and the environment overriding both.
-/
namespace Runbook

abbrev Env := List (Text × Text)

/-- The value of a variable; the first definition counts. -/
def Env.get? (env : Env) (name : Text) : Option Text := env.lookup name

structure Config where
  agentModel : Option Text := none
  agentCommand : Option Text := none
  logsDir : Option Text := none
  debug : Option Bool := none
deriving DecidableEq, Repr

inductive ConfigError where
  | read (path : Path) (cause : FileError)
  | invalid (path : Path)
deriving DecidableEq, Repr

def ConfigError.message : ConfigError → Text
  | read path cause => "failed to read config " ++ path.text ++ ": " ++ cause.message
  | invalid path => "invalid config " ++ path.text

namespace Config

def defaultLogsDir : Text := ".jaiph/runs"

/-- The settings in a document. A key of the wrong type counts as missing. -/
def ofEntries (root : Toml.Entries) : Config :=
  let key (table name : Text) : Option Toml.Item := do
    let entries ← (← root.lookup table).entries?
    entries.lookup name
  { agentModel := (key "agent" "default_model").bind (·.text?)
    agentCommand := (key "agent" "command").bind (·.text?)
    logsDir := (key "run" "logs_dir").bind (·.text?)
    debug := (key "run" "debug").bind (·.bool?) }

def parse (path : Path) (text : Text) : Except ConfigError Config :=
  match Toml.parse text with
  | some root => .ok (ofEntries root)
  | none => .error (.invalid path)

def ofFile (t : FileTree) (path : Path) : Except ConfigError (Option Config) :=
  match t.readText path with
  | .ok text => (parse path text).map some
  | .error .notFound => .ok none
  | .error e => .error (.read path e)

def merge (base overrides : Config) : Config where
  agentModel := overrides.agentModel.or base.agentModel
  agentCommand := overrides.agentCommand.or base.agentCommand
  logsDir := overrides.logsDir.or base.logsDir
  debug := overrides.debug.or base.debug

def userFile (env : Env) : Option Path := do
  let base : Path ←
    match (env.get? "XDG_CONFIG_HOME").filter (· ≠ []) with
    | some dir => some ⟨dir⟩
    | none => (env.get? "HOME").map fun home => Path.push ⟨home⟩ ".config"
  return (base.push "jaiph").push configName

def workspaceFile (workspace : Path) : Path := (workspace.push workspaceDir).push configName

def ofFileOrDefault (t : FileTree) (path : Path) : Config :=
  match ofFile t path with
  | .ok (some c) => c
  | _ => {}

def load (t : FileTree) (env : Env) (workspace : Path) : Config :=
  let user := ((userFile env).map (ofFileOrDefault t)).getD {}
  user.merge (ofFileOrDefault t (workspaceFile workspace))

/-- The directory of all runs: the variable unless empty, or the setting, or the default. -/
def runsDir (c : Config) (workspace : Path) (fromEnv : Option Text) : Path :=
  workspace.push (((fromEnv.filter (· ≠ [])).or c.logsDir).getD defaultLogsDir)

/-- The variables that a run adds to the environment. Those that are set already stay. -/
def runtimeEnv (c : Config) (workspace : Path) (env : Env) : Env :=
  let candidates : List (Text × Option Text) :=
    [("JAIPH_AGENT_MODEL", c.agentModel), ("JAIPH_AGENT_COMMAND", c.agentCommand),
      ("JAIPH_RUNS_DIR", c.logsDir),
      ("JAIPH_DEBUG", if c.debug = some true then some "true" else none)]
  ("JAIPH_WORKSPACE", workspace.text) :: candidates.filterMap fun (name, value) =>
    if (env.get? name).isSome then none else value.map (name, ·)

end Config

/-- The nearest directory above `start`, itself included, that is marked as a workspace; `start` if
there is none. -/
def workspaceRoot (t : FileTree) (start : Path) : Path :=
  let marked (dir : Path) : Bool := t.exists? (dir.push workspaceDir) || t.exists? (dir.push ".git")
  (start.ancestors.find? marked).getD start

end Runbook
