import Runbook.Shell.Trace

/-!
Assignments as they stand in commands: of texts, of elements and of whole lists.
-/
namespace Runbook.Shell
open Expansion ShellM Kernel State

variable (e : Engine)

structure AssignWord where
  name : Text
  subscript : Option Text
  appends : Bool
  value : Text

namespace AssignWord

def ofText? (d : Dialect) (t : Text) : Option AssignWord :=
  let name := t.takeWhile isNameChar
  if !isIdentifier name then none
  else
    let valueOf (subscript : Option Text) (rest : Text) : Option AssignWord :=
      match rest with
      | '=' :: value => some ⟨name, subscript, false, value⟩
      | '+' :: '=' :: value => some ⟨name, subscript, true, value⟩
      | _ => none
    match t.drop name.length with
    | '[' :: rest => (Piece.closing d ']' rest).bind fun (key, after) => valueOf (some key) after
    | rest => valueOf none rest

def isList (w : AssignWord) : Bool := w.value.head? = some '(' && w.value.getLast? = some ')'

def target (w : AssignWord) : Text :=
  match w.subscript with
  | some key => w.name ++ '[' :: key ++ [']']
  | none => w.name

def sign (w : AssignWord) : Text := if w.appends then "+=" else "="

end AssignWord

/-! Lists. -/

inductive Member where
  | next (t : Text)
  | keyed (key : Text) (appends : Bool) (value : Text)
deriving DecidableEq

namespace Assignment

def membersOf (d : Dialect) (t : Text) : List Text :=
  let reading := Lexeme.members (Reader.substitutionWithin Reader.depthLimit) 1 (t.length + 2) []
  match (reading.run d).run.run (Input.ofText 1 (t.drop 1)) with
  | (.ok words, _) => words
  | (.error _, _) => []

def keyedMember? (d : Dialect) (t : Text) : Option (Text × Bool × Text) :=
  match t with
  | '[' :: rest =>
    match Piece.closing d ']' rest with
    | some (key, '=' :: value) => some (key, false, value)
    | some (key, '+' :: '=' :: value) => some (key, true, value)
    | _ => none
  | _ => none

def expandMembers (isKeyed : Bool) (t : Text) : ShellM (List Member) := do
  let x := Engine.substituter e
  let d := (← get).dialect
  concat (fun w =>
    match keyedMember? d w with
    | some (key, appends, value) => do
      let k ← if isKeyed then singleText x key else expressionText x key
      let v ← assignedText x value
      return [.keyed k appends v]
    | none =>
      if isKeyed then return [.next (← singleText x w)]
      else do
        let fields ← Fields.ofWord x w
        return fields.map .next) (membersOf d t)

def membersText (ms : List Member) : Text :=
  '(' :: [' '].intercalate (ms.map fun
    | .next t => singleQuote t
    | .keyed key appends value =>
      '[' :: singleQuote key ++ (if appends then "]+=" else "]=") ++ singleQuote value) ++ [')']

def putElements (name : Text) : Nat → List Member → ShellM (Except Refusal Unit)
  | _, [] => return .ok ()
  | i, .next t :: rest => do
    match ← assignTo (.element name i) false t with
    | .ok () => putElements name (i + 1) rest
    | .error r => return .error r
  | i, .keyed key appends value :: rest => do
    let refuse : ShellM (Except Refusal Unit) := do
      report (Refusal.badSubscript ('[' :: key ++ "]=" ++ value)).message
      putElements name i rest
    if key = [] then refuse
    else
      match ← placeOf name key with
      | .ok (.element _ j) =>
        match ← assignTo (.element name j) appends value with
        | .ok () => putElements name (j + 1) rest
        | .error r => return .error r
      | _ => refuse

def putEntries (name : Text) : List Member → ShellM (Except Refusal Unit)
  | [] => return .ok ()
  | .next t :: rest => do
    report (Refusal.needsSubscript name t).message
    putEntries name rest
  | .keyed key appends value :: rest => do
    if key = [] then
      report (Refusal.badSubscript ('[' :: key ++ "]=" ++ value)).message
      putEntries name rest
    else
      match ← assignTo (.entry name key) appends value with
      | .ok () => putEntries name rest
      | .error r => return .error r

def pairUp : List Member → List Member
  | .next k :: .next v :: rest => .keyed k false v :: pairUp rest
  | [.next k] => [.keyed k false []]
  | ms => ms

def isKeyedList (s : State) (name : Text) : Bool := ((s.find? name).map (·.value.isKeyed)).getD false

def assignMembers (name : Text) (appends : Bool) (ms : List Member) : ShellM (Except Refusal Unit) := do
  let s ← get
  let old := s.heldBy name
  let start : Value :=
    if old.isKeyed then .keyed (if appends then old.entries else [])
    else .indexed (if appends then old.elements else [])
  match s.setValue name start with
  | .error r => return .error r
  | .ok s =>
    set s
    if old.isKeyed then
      putEntries name (match ms with | .next _ :: _ => pairUp ms | _ => ms)
    else putElements name (Elements.next start.elements) ms

def assignList (name : Text) (appends : Bool) (t : Text) : ShellM (Except Refusal Unit) := do
  let name := (← get).follow name
  if ((← get).attributesFor name).readonly then return .error (.readonly name)
  let ms ← expandMembers e (isKeyedList (← get) name) t
  assignMembers name appends ms

/-! Single texts. -/

def placeFor (w : AssignWord) : ShellM (Except Refusal ShellM.Place) := do
  let x := Engine.substituter e
  let s ← get
  let name := s.follow w.name
  match w.subscript, name.cutAt (· == '[') with
  | none, none => return .ok (.whole name)
  | none, some (base, inside) => placeOf base inside.dropLast
  | some key, _ =>
    let bad : ShellM (Except Refusal ShellM.Place) := return .error (.badSubscript w.target)
    if isKeyedList s name then
      let k ← singleText x key
      if k = [] then bad else return .ok (.entry name k)
    else
      let k ← expressionText x key
      if k = [] then bad
      else
        match ← placeOf name k with
        | .ok p => return .ok p
        | .error _ => bad

def perform (w : AssignWord) : ShellM (Except Refusal Unit) := do
  if w.isList then
    Trace.line e (w.target ++ w.sign ++ w.value)
    if w.subscript.isSome then return .error (.listIntoElement w.target)
    else assignList e w.name w.appends w.value
  else
    let value ← assignedText (Engine.substituter e) w.value
    Trace.assignment e (w.target ++ w.sign) value
    if w.subscript.isNone ∧ (← get).isCircular w.name then assignCircular w.name w.appends value
    else
      match ← placeFor e w with
      | .ok p => assignTo p w.appends value
      | .error r => return .error r

def performAll : List AssignWord → ShellM Unit
  | [] => return ()
  | w :: rest => do
    match ← perform e w with
    | .ok () => performAll rest
    | .error (.unassignable _) =>
      setStatus 1
      jump .discard
    | .error r => giveUp 1 r.message

def forCommand : List AssignWord → ShellM (List (Text × Variable))
  | [] => return []
  | w :: rest => do
    let value ← assignedText (Engine.substituter e) w.value
    Trace.assignment e (w.target ++ w.sign) value
    let s ← get
    let a := s.attributesFor w.name
    if w.subscript.isSome then
      report (Refusal.badName w.target).message
      forCommand rest
    else if a.readonly then
      report (Refusal.readonly w.name).message
      forCommand rest
    else
      let value ← assignedValue (.whole w.name) w.appends value
      let v : Variable := ⟨.one (Variable.sized a value), { a with exported := true, live := false }⟩
      -- Later assignments see the ones before.
      let s ← get
      set { s with scopes := { bindings := [(w.name, v)] } :: s.scopes }
      let r ← attempt (forCommand rest)
      modify fun now => { now with scopes := now.scopes.drop 1 }
      let more ← resume r
      return if more.any (·.1 = w.name) then more else (w.name, v) :: more

end Assignment

end Runbook.Shell
