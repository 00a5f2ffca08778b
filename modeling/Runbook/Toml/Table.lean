import Runbook.Text.Basic

/-!
TOML documents as tables. A table that came into being on the way to another one is implicit: a header may
still define it. One made by a dotted key takes further dotted keys only. Inline tables and arrays are
closed.
-/
namespace Runbook.Toml

/-- A value, a table or a list of tables. Numbers and times are known to be valid, no more. -/
inductive Item where
  | string (text : Text)
  | boolean (value : Bool)
  | number
  | time
  | array (items : List Item)
  | inline (entries : List (Text × Item))
  | table (isImplicit dotted : Bool) (entries : List (Text × Item))
  | tables (elements : List (List (Text × Item)))

abbrev Entries := List (Text × Item)

namespace Item

def entries? : Item → Option Entries
  | inline entries | table _ _ entries => some entries
  | _ => none

def text? : Item → Option Text
  | string t => some t
  | _ => none

def bool? : Item → Option Bool
  | boolean b => some b
  | _ => none

end Item

namespace Entries

def put (key : Text) (item : Item) : Entries → Entries
  | [] => [(key, item)]
  | (k, old) :: rest => if k = key then (k, item) :: rest else (k, old) :: put key item rest

/-- Changes the table at the end of a path; missing ones on the way come into being as implicit. `dotted`
tells that the path is part of a dotted key, which does not enter tables that a header defined. -/
def descend (dotted : Bool) (change : Bool → Entries → Option Entries) :
    List Text → Bool → Entries → Option Entries
  | [], own, entries => change own entries
  | key :: rest, _, entries =>
    match entries.lookup key with
    | none => do
      let inner ← descend dotted change rest dotted []
      return put key (.table true dotted inner) entries
    | some (.table isImplicit made inner) =>
      if dotted && !isImplicit then none
      else do
        let inner ← descend dotted change rest made inner
        return put key (.table isImplicit made inner) entries
    | some (.tables elements) => do
      let last ← elements.getLast?
      let last ← descend dotted change rest false last
      return put key (.tables (elements.dropLast ++ [last])) entries
    | some _ => none

def addKey (path : List Text) (key : Text) (item : Item) (own : Bool) (entries : Entries) :
    Option Entries :=
  if own = path.isEmpty ∨ (entries.lookup key).isSome then none else some (entries ++ [(key, item)])

/-- Defines `path.key = item` in a table. -/
def define (path : List Text) (key : Text) (item : Item) (own : Bool) (entries : Entries) :
    Option Entries :=
  descend true (addKey path key item) path own entries

/-- Opens the table `key` for a header: it must be new or implicit. It comes last from then on. -/
def openTable (key : Text) (entries : Entries) : Option Entries :=
  match entries.lookup key with
  | none => some (entries ++ [(key, .table false false [])])
  | some (.table true false inner) =>
    some (entries.filter (·.1 ≠ key) ++ [(key, .table false false inner)])
  | some _ => none

def openElement (key : Text) (entries : Entries) : Option Entries :=
  match entries.lookup key with
  | none => some (put key (.tables [[]]) entries)
  | some (.tables elements) => some (put key (.tables (elements ++ [[]])) entries)
  | some _ => none

end Entries

end Runbook.Toml
