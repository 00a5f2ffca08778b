import Runbook.FileTree
import Runbook.Text.Lines

/-!
Setting up a workspace: a starter workflow and a configuration file in a directory of their own.
Files that exist keep their contents.
-/
namespace Runbook

def workspaceDir : Text := ".jaiph"

def configName : Text := "config.toml"

namespace Scaffold

def bootstrapName : Text := "bootstrap.jph"

def bootstrapMode : Nat := 0o755

inductive Error where
  | notADirectory (path : Path)
  | write (path : Path) (cause : FileError)
deriving DecidableEq, Repr

def Error.message : Error → Text
  | notADirectory path => "jaiph init expects a directory path, got: " ++ path.text
  | write path cause => "failed to write " ++ path.text ++ ": " ++ cause.message

def bootstrapLines : List Text :=
  [ "#!/usr/bin/env jaiph",
    "",
    "# Bootstraps Jaiph workflows for this repository.",
    "workflow default \x7b",
    "  prompt \"",
    "    You are bootstrapping Jaiph for this repository.",
    "    Follow the Jaiph language rules exactly.",
    "    Perform these tasks in order:",
    "    1) Analyze repository structure, languages, package manager, and build/test/lint commands.",
    "    2) Detect existing contribution conventions (branching, commit style, CI checks).",
    "    3) Create or update Jaiph workflows under .jaiph/ for safe feature implementation, including:",
    "       - preflight checks (clean git state, branch guards when relevant)",
    "       - implementation workflow",
    "       - verification workflow (tests/lint/build)",
    "    4) Keep workflows minimal, composable, and specific to this project.",
    "    5) Print a short usage guide with exact jaiph run commands.",
    "  \"",
    "\x7d" ]

def configLines : List Text :=
  [ "# Jaiph project configuration",
    "[agent]",
    "# Default model for prompt steps (passed as --model to the agent command).",
    "default_model = \"gpt-5\"",
    "",
    "[run]",
    "# Store run logs under .jaiph/runs by default (relative to workspace root).",
    "logs_dir = \".jaiph/runs\"",
    "# Set to true to enable shell xtrace during jaiph run.",
    "debug = false" ]

def textOf (lines : List Text) : Text := lines.flatMap (· ++ ['\n'])

def opening (root : Path) : Text :=
  textOf [[], "Jaiph init", [], "▸ Creating .jaiph/bootstrap.jph in " ++ root.text ++ "..."]

def closing (newBootstrap newConfig : Bool) : Text :=
  textOf ["✓ Initialized .jaiph/bootstrap.jph"] ++
    (if newBootstrap then [] else textOf ["▸ Note: bootstrap file already existed; left unchanged."]) ++
    textOf
      [ if newConfig then "✓ Initialized .jaiph/config.toml"
        else "▸ Note: config file already existed; left unchanged.",
        [], "Try:", "  ./.jaiph/bootstrap.jph", "  jaiph run .jaiph/bootstrap.jph", [],
        "This asks an agent to analyze the project and scaffold recommended workflows.",
        "Tip: add `.jaiph/runs/` to `.gitignore`.", [] ]

structure Outcome where
  report : Text
  error : Option Error
  tree : FileTree

/-- Writes a file that does not exist yet; tells whether it was written. -/
def writeNew (t : FileTree) (p : Path) (text : Text) : Except Error (FileTree × Bool) :=
  if t.exists? p then .ok (t, false)
  else
    match t.writeBytes p (Utf8.encode text) with
    | .ok t => .ok (t, true)
    | .error e => .error (.write p e)

def init (t : FileTree) (workspace : Path) : Outcome :=
  if !t.isDir workspace then ⟨[], some (.notADirectory workspace), t⟩
  else
    let root := Path.absolute t.cwd workspace
    let dir := root.push workspaceDir
    let bootstrap := dir.push bootstrapName
    let said := opening root
    match t.createDirs dir with
    | .error (e, t) => ⟨said, some (.write dir e), t⟩
    | .ok t =>
      match writeNew t bootstrap (textOf bootstrapLines) with
      | .error e => ⟨said, some e, t⟩
      | .ok (t, newBootstrap) =>
        match t.setMode bootstrap bootstrapMode with
        | .error e => ⟨said, some (.write bootstrap e), t⟩
        | .ok t =>
          match writeNew t (dir.push configName) (textOf configLines) with
          | .error e => ⟨said, some e, t⟩
          | .ok (t, newConfig) => ⟨said ++ closing newBootstrap newConfig, none, t⟩

end Scaffold

end Runbook
