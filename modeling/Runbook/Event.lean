import Runbook.Json

/-!
Step events: the lines by which a running script tells that a step has started or ended, and what
the name of a shell function says about the step. The lines are written by a function of the runtime
library; its text is made from the markers, escapes and members here.
-/
namespace Runbook

inductive RowKind where
  | workflow
  | rule
  | function
  | prompt
  | step
deriving DecidableEq, Repr

def RowKind.text : RowKind → Text
  | .workflow => "workflow"
  | .rule => "rule"
  | .function => "function"
  | .prompt => "prompt"
  | .step => "step"

def rootWorkflow : Text := "default"

/-- The function of the runtime library that runs a prompt. -/
def promptFunction : Text := "jaiph__prompt"

def kindMarkers : List (Text × RowKind) :=
  [("__workflow_", .workflow), ("__rule_", .rule), ("__function_", .function)]

/-- Of the markers found, the one that ends first, with what follows it. -/
def earliest : List (Nat × RowKind × Text) → Option (Nat × RowKind × Text)
  | [] => none
  | found :: rest =>
    match earliest rest with
    | some other => if found.1 ≤ other.1 then some found else some other
    | none => some found

def classify (func : Text) : RowKind × Text :=
  let found := kindMarkers.filterMap fun (marker, kind) =>
    (Text.cut marker func).map fun (before, after) => (before.length + marker.length, kind, after)
  match earliest found with
  | some (_, kind, name) => (kind, name)
  | none => if func = promptFunction then (.prompt, RowKind.prompt.text) else (.step, func)

inductive Phase where
  | start
  | finish
deriving DecidableEq, Repr

def Phase.text : Phase → Text
  | .start => "STEP_START"
  | .finish => "STEP_END"

def Phase.ofText (t : Text) : Option Phase :=
  if t = Phase.start.text then some .start else if t = Phase.finish.text then some .finish else none

/-- A step event. The last four fields are there at the end of a step only. -/
structure Event where
  phase : Phase
  func : Text
  kind : Text
  name : Text
  time : Text
  status : Option Int
  elapsedMs : Option Int
  outFile : Option Text
  errFile : Option Text
deriving DecidableEq, Repr

namespace Event

def marker : Text := "__JAIPH_EVENT__ "

def textOf : Json → Option Text
  | .string t => t
  | _ => none

/-- A phase is its name, or an object with that name as its one key and null behind it. -/
def phaseOf : Json → Option Phase
  | .string (some t) => Phase.ofText t
  | .object [(some t, .null)] => Phase.ofText t
  | _ => none

def integerOf (lo hi : Int) : Json → Option Int
  | .number (some n) => if lo ≤ n ∧ n ≤ hi then some n else none
  | _ => none

/-- An optional field: missing and null mean the same. -/
def optional {α : Type} (read : Json → Option α) : Option Json → Option (Option α)
  | none | some .null => some none
  | some j => (read j).map some

def withDefault {α : Type} (value : α) (read : Json → Option α) : Option Json → Option α
  | none => some value
  | some j => read j

def fieldNames : List Text :=
  ["type", "func", "kind", "name", "ts", "status", "elapsed_ms", "out_file", "err_file"]

def ofFields (field : Nat → Option Json) : Option Event := do
  return {
    phase := ← (← field 0) |> phaseOf
    func := ← (← field 1) |> textOf
    kind := ← (← field 2) |> textOf
    name := ← (← field 3) |> textOf
    time := ← withDefault [] textOf (field 4)
    status := ← optional (integerOf (-2147483648) 2147483647) (field 5)
    elapsedMs := ← optional (integerOf (-9223372036854775808) 9223372036854775807) (field 6)
    outFile := ← optional textOf (field 7)
    errFile := ← optional textOf (field 8) }

def valuesOf (members : List (Option Text × Json)) (name : Text) : List Json :=
  members.filterMap fun (key, j) => if key = some name then some j else none

/-- An event is an object, in which no known name stands twice, or an array of its fields. -/
def ofJson : Json → Option Event
  | .object members =>
    if members.all (·.1.isSome) ∧ fieldNames.all fun n => (valuesOf members n).length ≤ 1 then
      ofFields fun i => (fieldNames[i]?).bind fun n => (valuesOf members n).head?
    else none
  | .array items => if items.length ≤ fieldNames.length then ofFields (items[·]?) else none
  | _ => none

def parse (line : Text) : Option Event :=
  match marker.isPrefixOf? line with
  | some payload => Json.parse payload >>= ofJson
  | none => none

def step (e : Event) : RowKind × Text := classify e.func

def isRoot (entry : Text) (e : Event) : Bool := e.func = entry ++ "__workflow_" ++ rootWorkflow

/-- The exit status; a missing one counts as a failure. -/
def exitStatus (e : Event) : Int := e.status.getD 1

def elapsedSecs (e : Event) : Nat := (e.elapsedMs.getD 0).toNat / 1000

/-- The characters that are escaped, and what stands for each behind a backslash. They are replaced one
after the other, the backslash first. -/
def escapes : List (Char × Char) := [('\\', '\\'), ('"', '"'), ('\n', 'n'), ('\r', 'r'), ('\t', 't')]

def escape (t : Text) : Text :=
  escapes.foldl (fun t (c, sign) => t.flatMap fun d => if d = c then ['\\', sign] else [d]) t

def quote (t : Text) : Text := '"' :: escape t ++ ['"']

/-- The value of a member: an argument between quotes, as it is or escaped, a number, or the time. -/
inductive Slot where
  | plain (i : Nat)
  | escaped (i : Nat)
  | number (i : Nat)
  | time
deriving DecidableEq, Repr

/-- The members of the object, as they are added to it. The last four are there at the end of a step only. -/
def slots : List (List (Text × Slot)) :=
  [ [("type", .plain 1), ("func", .escaped 2), ("kind", .plain 3)],
    [("name", .escaped 4), ("ts", .time)],
    [("status", .number 5), ("elapsed_ms", .number 6)],
    [("out_file", .escaped 7), ("err_file", .escaped 8)] ]

def arguments (e : Event) : List Text :=
  [e.phase.text, e.func, e.kind, e.name] ++
    match e.phase with
    | .start => []
    | .finish =>
      [Text.ofInt (e.status.getD 0), Text.ofInt (e.elapsedMs.getD 0), e.outFile.getD [], e.errFile.getD []]

def Slot.fill (args : List Text) (time : Text) : Slot → Text
  | .plain i => '"' :: args.getD (i - 1) [] ++ ['"']
  | .escaped i => quote (args.getD (i - 1) [])
  | .number i => args.getD (i - 1) []
  | .time => '"' :: time ++ ['"']

/-- The line by which the runtime library tells an event. -/
def line (e : Event) : Text :=
  let rows := if 8 ≤ e.arguments.length then slots else slots.take 2
  let members := rows.flatten.map fun (name, slot) =>
    '"' :: name ++ '"' :: ':' :: slot.fill e.arguments e.time
  marker ++ '{' :: [','].intercalate members ++ ['}']

end Event

end Runbook
