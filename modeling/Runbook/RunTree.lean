import Runbook.Event
import Runbook.Source.Module
import Runbook.Text.Blank

/-!
The run tree: the steps of the root workflow as rows, with local workflows expanded below the row that first
runs them.
-/
namespace Runbook

inductive RowStatus where
  | pending
  | done
  | failed
deriving DecidableEq, Repr

/-- The state of a row; the seconds are known once it is resolved. -/
structure RowState where
  status : RowStatus
  secs : Option Nat
deriving DecidableEq, Repr

/-- A row of the tree. `indent` tells for each level above it whether that level goes on below, and
`branch` the same for its own level; the root has no branch. -/
structure Row where
  kind : RowKind
  name : Text
  indent : List Bool
  branch : Option Bool
deriving DecidableEq, Repr

namespace Row

def root : Row := ⟨.workflow, rootWorkflow, [], none⟩

def middleBranch : Text := "├── "

def lastBranch : Text := "└── "

def indentText (goesOn : Bool) : Text := if goesOn then "│   " else "    "

def margin (r : Row) : Text := r.indent.flatMap indentText

def branchText (r : Row) : Option Text :=
  r.branch.map fun goesOn => if goesOn then middleBranch else lastBranch

def label (r : Row) : Text := r.kind.text ++ " " ++ r.name

end Row

/-- The name stands in the command as a word of its own, with a blank, a closing parenthesis or the
end behind it. Occurrences are taken from the left, each behind the one before. `skip` characters
belong to the last occurrence. -/
def callsFrom (name : Text) : Option Char → Nat → Text → Bool
  | before, skip, [] => skip == 0 && name.isEmpty && !before.any isNameChar
  | before, 0, c :: rest =>
    match name.isPrefixOf? (c :: rest) with
    | some after =>
      (!before.any isNameChar && after.head?.all (fun c => isBlank c || c == ')')) ||
        callsFrom name (some c) (name.length - 1) rest
    | none => callsFrom name (some c) 0 rest
  | _, skip + 1, c :: rest => callsFrom name (some c) skip rest

def callsFunction (name command : Text) : Bool := callsFrom name none 0 command

/-- A row to be, and the workflow whose steps come below it. -/
structure Child where
  kind : RowKind
  name : Text
  nested : Option Text
deriving DecidableEq, Repr

namespace Module

def stepChildren (m : Module) : Step → List Child
  | .ensure rule _ | .unlessShell rule _ => [⟨.rule, rule.value, none⟩]
  | .run workflow => [⟨.workflow, workflow.value, some workflow.value⟩]
  | .unlessRun rule workflow =>
    [⟨.rule, rule.value, none⟩, ⟨.workflow, workflow.value, some workflow.value⟩]
  | .prompt .. => [⟨.prompt, "prompt", none⟩]
  | .shell command _ =>
    (m.functions.filter fun f => callsFunction f.name command).map fun f => ⟨.function, f.name, none⟩

def children (m : Module) (workflow : Text) : List Child :=
  match m.workflow? workflow with
  | some w => w.steps.flatMap m.stepChildren
  | none => []

end Module

abbrev Expanded := List Row × List Text

/-- The rows of the children with everything below them. `nested` expands a workflow at a deeper
indent; a workflow is expanded once, and one of another module never. -/
def childRows (nested : List Bool → List Text → Text → Expanded) (indent : List Bool) :
    List Text → List Child → Expanded
  | visited, [] => ([], visited)
  | visited, child :: rest =>
    let goesOn := !rest.isEmpty
    let (below, visited) :=
      match child.nested with
      | some workflow =>
        if '.' ∈ workflow ∨ workflow ∈ visited then ([], visited)
        else nested (indent ++ [goesOn]) (visited ++ [workflow]) workflow
      | none => ([], visited)
    let (after, visited) := childRows nested indent visited rest
    (⟨child.kind, child.name, indent, some goesOn⟩ :: below ++ after, visited)

/-- The rows below a workflow; `fuel` bounds the depth. -/
def Module.expand (m : Module) : Nat → List Bool → List Text → Text → Expanded
  | 0, _, visited, _ => ([], visited)
  | fuel + 1, indent, visited, workflow =>
    childRows (m.expand fuel) indent visited (m.children workflow)

structure RunTree where
  rows : List (Row × RowState)
deriving DecidableEq, Repr

namespace RunTree

/-- The tree of a module before its run. One level more than there are workflows is deep enough. -/
def ofModule (m : Module) : RunTree :=
  let (rows, _) := m.expand (m.workflows.length + 1) [] [rootWorkflow] rootWorkflow
  ⟨(Row.root, ⟨.done, none⟩) :: rows.map (·, ⟨.pending, none⟩)⟩

def matches? (kind : RowKind) (name : Text) (entry : Row × RowState) : Bool :=
  entry.2.status = .pending && entry.1.kind = kind &&
    (entry.1.name = name || entry.1.name.endsWith ('.' :: name))

/-- The first pending row, root apart, of that kind whose name is `name` or ends in `.name`. -/
def findPending (t : RunTree) (kind : RowKind) (name : Text) : Option Nat :=
  ((t.rows.drop 1).findIdx? (matches? kind name)).map (· + 1)

def outcome (success : Bool) : RowStatus := if success then .done else .failed

def resolve (t : RunTree) (index : Nat) (success : Bool) (secs : Nat) : RunTree :=
  ⟨t.rows.modify index fun (row, _) => (row, ⟨outcome success, some secs⟩)⟩

/-- Gives the final outcome to all rows from `first` on that are pending, root apart. -/
def reconcile (t : RunTree) (first : Nat) (success : Bool) : RunTree :=
  ⟨t.rows.mapIdx fun i (row, state) =>
    if max first 1 ≤ i ∧ state.status = .pending then (row, ⟨outcome success, some 0⟩)
    else (row, state)⟩

end RunTree

end Runbook
