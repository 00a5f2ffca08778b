import Runbook.Shell.Monad

/-!
Assigning to variables and to elements of lists, as far as what is declared of them allows it.
-/
namespace Runbook.Shell
open State

namespace ShellM

/-- A place that can be assigned: a variable, an element by its number or an entry by its key. -/
inductive Place where
  | whole (name : Text)
  | element (name : Text) (i : Nat)
  | entry (name key : Text)
deriving DecidableEq

namespace Place

def name : Place → Text
  | whole n | element n _ | entry n _ => n

end Place

def held (p : Place) : ShellM (Option Text) := do
  let s ← get
  match p with
  | .whole name => return (s.lookup? name).bind (·.value.text?)
  | .element name i => return (s.lookup? name).bind fun v => v.value.elements.lookup i
  | .entry name key => return (s.lookup? name).bind fun v => v.value.entries.lookup key

def store (p : Place) (t : Text) : ShellM (Except Refusal Unit) := do
  let s ← get
  let changed : Except Refusal State :=
    match p with
    | .whole name => s.setText name t
    | .element name i => s.setElement name i t
    | .entry name key => s.setEntry name key t
  match changed with
  | .ok s =>
    set s
    if p = .whole "BASH_COMPAT" ∧ t ≠ [] ∧ (State.version? t).isNone then
      report ("BASH_COMPAT: " ++ t ++ ": compatibility value out of range")
    return .ok ()
  | .error r => return .error r

/-- The value that is assigned: a number where numbers are declared. What is added comes behind what
is there, or to it. -/
def assignedValue (p : Place) (appends : Bool) (t : Text) : ShellM Text := do
  let a := (← get).attributesFor p.name
  let old ← held p
  if a.integer then
    let n ← evaluate t
    if appends then
      let m ← evaluate (old.getD [])
      return Text.ofInt (Arith.wrap (m + n))
    else return Text.ofInt n
  else return if appends then old.getD [] ++ t else t

def assignTo (p : Place) (appends : Bool) (t : Text) : ShellM (Except Refusal Unit) := do
  if ((← get).attributesFor p.name).readonly then return .error (.readonly p.name)
  let value ← assignedValue p appends t
  store p value

def placeOf (name key : Text) : ShellM (Except Refusal Place) := do
  let s ← get
  if ((s.find? name).map (·.value.isKeyed)).getD false then return .ok (.entry name key)
  else
    let n ← evaluate key
    match Arith.elementIndex? (← get) name n with
    | some i => return .ok (.element name i)
    | none => return .error (.badSubscript (name ++ '[' :: key ++ [']']))

def inOutermost {α : Type} (m : ShellM α) : ShellM α := do
  let s ← get
  let inner := s.scopes.dropLast
  set { s with scopes := s.scopes.drop inner.length }
  after m (modify fun s => { s with scopes := inner ++ s.scopes })

def circularWarning (name : Text) : Text := "warning: " ++ name ++ ": circular name reference"

def assignCircular (name : Text) (appends : Bool) (t : Text) : ShellM (Except Refusal Unit) := do
  report (circularWarning name)
  if (← get).inFunction then inOutermost (assignTo (.whole name) appends t)
  else
    setStatus 1
    jump .discard

def assign (name t : Text) : ShellM (Except Refusal Unit) := do
  let target := (← get).follow name
  match target.cutAt (· == '[') with
  | some (base, inside) =>
    match ← placeOf base inside.dropLast with
    | .ok p => assignTo p false t
    | .error r => return .error r
  | none => assignTo (.whole target) false t

def put (name t : Text) : ShellM Unit := modify fun s => s.force name t

end ShellM

end Runbook.Shell
