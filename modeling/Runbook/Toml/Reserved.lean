import Runbook.Toml.Scalar

/-!
The reserved key of times. A table that starts with this key and has the text of a time behind it is that
time; with any other value the document is not valid.
-/
namespace Runbook.Toml

def timeKey : Text := "$__toml_private_datetime"

def isLooseOffset : Text → Bool
  | [] => true
  | ['Z'] | ['z'] => true
  | [s, h1, h2, ':', m1, m2] =>
    (s == '+' || s == '-') && [h1, h2, m1, m2].all Char.isDigit &&
      valueIn 10 [h1, h2] * 60 + valueIn 10 [m1, m2] ≤ 24 * 60
  | _ => false

def isTimeText (t : Text) : Bool :=
  if t[2]? = some ':' then (clockAt 24 t).any List.isEmpty
  else
    match dateAt t with
    | none => false
    | some (c :: rest) =>
      if c = 'T' ∨ c = 't' ∨ c = ' ' then (clockAt 24 rest).any isLooseOffset
      else isLooseOffset (c :: rest)
    | some [] => true

def timeOf? : Entries → Option (Option Item)
  | (key, item) :: _ =>
    if key = timeKey then
      some (match item with
        | .string text => if isTimeText text then some .time else none
        | _ => none)
    else none
  | [] => none

mutual

def Item.settled : Item → Option Item
  | .array items => (settledItems items).map .array
  | .inline entries =>
    match timeOf? entries with
    | some time => time
    | none => (settledEntries entries).map .inline
  | .table isImplicit dotted entries =>
    match timeOf? entries with
    | some time => time
    | none => (settledEntries entries).map (.table isImplicit dotted)
  | .tables elements => (settledTables elements).map .array
  | item => some item

def settledItems : List Item → Option (List Item)
  | [] => some []
  | item :: rest => do return (← item.settled) :: (← settledItems rest)

def settledEntries : List (Text × Item) → Option (List (Text × Item))
  | [] => some []
  | (key, item) :: rest => do return (key, ← item.settled) :: (← settledEntries rest)

def settledTables : List (List (Text × Item)) → Option (List Item)
  | [] => some []
  | entries :: rest => do
    let first ←
      match timeOf? entries with
      | some time => time
      | none => (settledEntries entries).map (.table false false)
    return first :: (← settledTables rest)

end

end Runbook.Toml
