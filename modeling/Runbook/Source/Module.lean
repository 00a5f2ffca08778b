import Runbook.Path
import Runbook.Source.Reference

/-!
Modules: what one source file declares. Rules and functions are named lists of shell lines, and a
workflow is a named list of steps.
-/
namespace Runbook

inductive Kind where
  | rule
  | function
  | workflow
deriving DecidableEq, Repr

def Kind.text : Kind → Text
  | .rule => "rule"
  | .function => "function"
  | .workflow => "workflow"

structure Import where
  path : Text
  owner : Text
  loc : Location
deriving DecidableEq, Repr

structure Routine where
  name : Text
  comments : List Text
  commands : List Text
  loc : Location
deriving DecidableEq, Repr

structure ShellLine where
  command : Text
  loc : Location
deriving DecidableEq, Repr

/-- One step of a workflow. The last two run only if a rule does not hold. -/
inductive Step where
  | ensure (rule : Reference) (args : Option Text)
  | run (workflow : Reference)
  | prompt (text : Text) (loc : Location)
  | shell (command : Text) (loc : Location)
  | unlessRun (rule workflow : Reference)
  | unlessShell (rule : Reference) (commands : List ShellLine)
deriving DecidableEq, Repr

structure Workflow where
  name : Text
  comments : List Text
  steps : List Step
  loc : Location
deriving DecidableEq, Repr

/-- The declarations of one source file, each list in source order. -/
structure Module where
  file : Path
  imports : List Import
  exported : List Text
  rules : List Routine
  functions : List Routine
  workflows : List Workflow
deriving DecidableEq, Repr

def Step.references : Step → List (Kind × Reference)
  | .ensure rule _ => [(.rule, rule)]
  | .run workflow => [(.workflow, workflow)]
  | .prompt .. | .shell .. => []
  | .unlessRun rule workflow => [(.rule, rule), (.workflow, workflow)]
  | .unlessShell rule _ => [(.rule, rule)]

namespace Module

def empty (file : Path) : Module := ⟨file, [], [], [], [], []⟩

def workflow? (m : Module) (name : Text) : Option Workflow := m.workflows.find? (·.name = name)

def declares (m : Module) (kind : Kind) (name : Text) : Bool :=
  match kind with
  | .rule => m.rules.any (·.name = name)
  | .function => m.functions.any (·.name = name)
  | .workflow => m.workflows.any (·.name = name)

/-- The references of all workflow steps, in source order. -/
def references (m : Module) : List (Kind × Reference) :=
  m.workflows.flatMap fun w => w.steps.flatMap Step.references

end Module

end Runbook
