import Runbook.Validation

/-!
Scripts: the shell program that a module becomes. A script sources the runtime library and its imports once,
and defines for each declaration its body and a wrapper that runs the body as a step.
-/
namespace Runbook

variable (layout : Layout)

inductive Statement where
  | shell (command : Text)
  | call (function : Text) (args : Option Text)
  | prompt (delimiter body : Text)
  | unless (check : Text) (commands : List Text)
deriving DecidableEq, Repr

/-- What a declaration becomes. `symbol` is the name of its wrapper; a rule runs sandboxed, and a
function can be called by its bare name too. -/
structure Definition where
  comments : List Text
  symbol : Text
  body : List Statement
  sandboxed : Bool
  bareName : Option Text
deriving DecidableEq, Repr

structure Script where
  guard : Text
  libraryPath : Text
  imports : List Text
  definitions : List Definition
deriving DecidableEq, Repr

def wrapperName (symbol : Text) (kind : Kind) (name : Text) : Text :=
  symbol ++ "__" ++ kind.text ++ "_" ++ name

def bodyName (wrapper : Text) : Text := wrapper ++ "__impl"

def guardName (symbol : Text) : Text :=
  "__jaiph_loaded_" ++ symbol.map fun c => if isNameChar c then c else '_'

def orColon (commands : List Text) : List Text := if commands = [] then [":"] else commands

namespace Statement

def lines : Statement → List Text
  | shell command => ["  " ++ command]
  | call function none => ["  " ++ function]
  | call function (some args) => ["  " ++ function ++ " " ++ args]
  | prompt delimiter body =>
    [("  jaiph__prompt <<" : Text) ++ delimiter] ++ (if body = [] then [] else [body]) ++ [delimiter]
  | .unless check commands =>
    [("  if ! " : Text) ++ check ++ "; then"] ++ (orColon commands).map (("    " : Text) ++ ·) ++
      [("  fi" : Text)]

end Statement

def functionLines (name : Text) (body : List Text) : List Text :=
  [name ++ "() \x7b"] ++ body ++ [['}'], []]

namespace Definition

def stepLine (d : Definition) : Text :=
  let runner := if d.sandboxed then d.symbol ++ " jaiph__execute_readonly" else d.symbol
  "  jaiph__run_step " ++ runner ++ " " ++ bodyName d.symbol ++ " \"$@\""

def bareLines (d : Definition) : List Text :=
  match d.bareName with
  | some name => [name ++ "() \x7b " ++ d.symbol ++ " \"$@\"; \x7d", []]
  | none => []

def lines (d : Definition) : List Text :=
  d.comments ++ functionLines (bodyName d.symbol) (d.body.flatMap Statement.lines) ++
    functionLines d.symbol [d.stepLine] ++ d.bareLines

def functionNames (d : Definition) : List Text :=
  [bodyName d.symbol, d.symbol] ++ d.bareName.toList

end Definition

namespace Script

/-- The directory of the script that is being read, as the shell finds it. -/
def ownDir : Text := "$(dirname \"$\x7bBASH_SOURCE[0]\x7d\")"

def header (s : Script) : List Text :=
  let guarded : List Text :=
    ["set -euo pipefail",
      "if [[ -n \"$\x7b" ++ s.guard ++ ":-\x7d\" ]]; then return 0; fi",
      s.guard ++ "=1",
      "source \"$\x7bJAIPH_STDLIB:-" ++ ownDir ++ "/" ++ s.libraryPath ++ "\x7d\""]
  guarded ++ s.imports.map (fun i => "source \"" ++ ownDir ++ "/" ++ i ++ "\"") ++ [[]]

def lines (s : Script) : List Text := s.header ++ s.definitions.flatMap Definition.lines

def text (s : Script) : Text := (Text.unlines s.lines).trimEnd

end Script

namespace Module

/-- The symbol of the module behind an alias; the alias itself if it is not imported. -/
def ownerSymbol (m : Module) (owner : Text) : Text :=
  match m.imports.reverse.find? (·.owner = owner) with
  | some i => layout.symbol (importedFile layout.cwd m.file i.path)
  | none => owner

def callee (m : Module) (kind : Kind) (r : Reference) : Except CompileError Text :=
  match r.target with
  | some (.own name) => .ok (wrapperName (layout.symbol m.file) kind name)
  | some (.imported owner name) => .ok (wrapperName (ownerSymbol layout m owner) kind name)
  | none => .error (.invalidReference kind r.value)

def statement (m : Module) : Step → Except CompileError Statement
  | .ensure rule args => return .call (← m.callee layout .rule rule) args
  | .run workflow => return .call (← m.callee layout .workflow workflow) none
  | .prompt text loc =>
    match Prompt.parse text with
    | .ok segments => .ok (.prompt (Prompt.delimiter (Prompt.body segments)) (Prompt.body segments))
    | .error cause => .error (.prompt m.file loc cause)
  | .shell command _ => .ok (.shell command)
  | .unlessRun rule workflow => do
    let check ← m.callee layout .rule rule
    let call ← m.callee layout .workflow workflow
    return .unless check [call]
  | .unlessShell rule commands =>
    return .unless (← m.callee layout .rule rule) (commands.map (·.command))

def routineDefinition (m : Module) (kind : Kind) (r : Routine) : Definition where
  comments := r.comments
  symbol := wrapperName (layout.symbol m.file) kind r.name
  body := ("set -eo pipefail".toList :: "set +u".toList :: orColon r.commands).map Statement.shell
  sandboxed := kind = .rule
  bareName := if kind = .function then some r.name else none

def workflowDefinition (m : Module) (w : Workflow) :
    Except CompileError Definition := do
  let body ← w.steps.mapM (m.statement layout)
  return {
    comments := w.comments
    symbol := wrapperName (layout.symbol m.file) .workflow w.name
    body := if body = [] then [.shell ":"] else body
    sandboxed := false
    bareName := none }

/-- The script of a module: rules first, then functions, then workflows. -/
def script (m : Module) : Except CompileError Script := do
  let workflows ← m.workflows.mapM (m.workflowDefinition layout)
  return {
    guard := guardName (layout.symbol m.file)
    libraryPath := layout.libraryPath m.file
    imports := m.imports.map fun i => layout.importPath m.file (importedFile layout.cwd m.file i.path)
    definitions := m.rules.map (m.routineDefinition layout .rule) ++
      m.functions.map (m.routineDefinition layout .function) ++ workflows }

end Module

def FileTree.compile (t : FileTree) (file root : Path) : Except CompileError Script := do
  let file := file.resolve t.cwd
  let m ← t.readModule file
  m.validate t
  m.script ⟨t.cwd, root.resolve t.cwd⟩

end Runbook
