import Runbook.Shell.Quote

/-!
Variables of the shell: single texts, lists with numbers and lists with keys, and what is declared of
them.
-/
namespace Runbook.Shell

inductive Kind where
  | single
  | indexed
  | keyed
deriving DecidableEq

/-- What a variable holds; one that holds nothing may still be declared as a list. Elements are in order of
their numbers, entries with keys in the order in which they are listed. -/
inductive Value where
  | absent (kind : Kind)
  | one (t : Text)
  | indexed (elements : List (Nat × Text))
  | keyed (entries : List (Text × Text))

/-- What is declared of a variable. The value of a live one is found out when it is asked for. -/
structure Attributes where
  exported : Bool := false
  readonly : Bool := false
  integer : Bool := false
  lower : Bool := false
  upper : Bool := false
  capital : Bool := false
  reference : Bool := false
  traced : Bool := false
  live : Bool := false

structure Variable where
  value : Value := .absent .single
  attributes : Attributes := {}

/-! Lists with numbers. -/

namespace Elements

def put (i : Nat) (t : Text) : List (Nat × Text) → List (Nat × Text)
  | [] => [(i, t)]
  | (j, old) :: rest =>
    if i < j then (i, t) :: (j, old) :: rest
    else if i = j then (i, t) :: rest
    else (j, old) :: put i t rest

def erase (i : Nat) (es : List (Nat × Text)) : List (Nat × Text) := es.filter (·.1 ≠ i)

def next (es : List (Nat × Text)) : Nat := (es.getLast?.map (·.1 + 1)).getD 0

def ofList (ts : List Text) : List (Nat × Text) := (ts.zipIdx).map fun (t, i) => (i, t)

end Elements

/-! Lists with keys. -/

namespace Entries

def sum (key : Text) : Nat :=
  (key.foldl (fun (i : UInt32) c =>
    let i := i + (i <<< 1) + (i <<< 4) + (i <<< 7) + (i <<< 8) + (i <<< 24)
    let n := c.toNat.toUInt32
    i ^^^ (if 128 ≤ n then n ||| 0xFFFFFF00 else n)) 2166136261).toNat

def bucket (key : Text) : Nat := sum key % 1024

/-- Puts an entry in its place: entries are in order of their buckets, and a new one comes first in
its own. -/
def insert (key value : Text) : List (Text × Text) → List (Text × Text)
  | [] => [(key, value)]
  | (k, v) :: rest =>
    if bucket k < bucket key then (k, v) :: insert key value rest
    else (key, value) :: (k, v) :: rest

def put (key value : Text) (es : List (Text × Text)) : List (Text × Text) :=
  if es.any (·.1 = key) then es.map fun (k, v) => if k = key then (k, value) else (k, v)
  else insert key value es

def erase (key : Text) (es : List (Text × Text)) : List (Text × Text) := es.filter (·.1 ≠ key)

end Entries

namespace Value

def isSet : Value → Bool
  | absent _ => false
  | _ => true

def kind : Value → Kind
  | absent k => k
  | one _ => .single
  | indexed _ => .indexed
  | keyed _ => .keyed

def text? : Value → Option Text
  | absent _ => none
  | one t => some t
  | indexed es => es.lookup 0
  | keyed es => es.lookup ['0']

def texts : Value → List Text
  | absent _ => []
  | one t => [t]
  | indexed es => es.map (·.2)
  | keyed es => es.map (·.2)

def keys : Value → List Text
  | absent _ => []
  | one _ => [['0']]
  | indexed es => es.map fun (i, _) => Text.ofNat i
  | keyed es => es.map (·.1)

def isList (v : Value) : Bool := v.kind ≠ .single

def isKeyed (v : Value) : Bool := v.kind = .keyed

def elements : Value → List (Nat × Text)
  | absent _ => []
  | one t => [(0, t)]
  | indexed es => es
  | keyed _ => []

def entries : Value → List (Text × Text)
  | absent _ => []
  | one t => [(['0'], t)]
  | indexed _ => []
  | keyed es => es

end Value

namespace Variable

def sized (a : Attributes) (t : Text) : Text :=
  if a.lower then t.map Char.toLower
  else if a.upper then t.map Char.toUpper
  else if a.capital then
    match t with
    | [] => []
    | c :: rest => c.toUpper :: rest.map Char.toLower
  else t

def letters (v : Variable) : Text :=
  let a := v.attributes
  let kind : Text :=
    match v.value.kind with
    | .indexed => ['a']
    | .keyed => ['A']
    | .single => []
  let ls : Text := kind ++ (if a.integer then ['i'] else []) ++ (if a.reference then ['n'] else []) ++
    (if a.readonly then ['r'] else []) ++ (if a.traced then ['t'] else []) ++
    (if a.exported then ['x'] else []) ++ (if a.capital then ['c'] else []) ++
    (if a.lower then ['l'] else []) ++ (if a.upper then ['u'] else [])
  if ls = [] then ['-'] else ls

def keyText (k : Text) : Text :=
  if needsEscapes k then escapedQuote k
  else if needsQuotes k || k = ['@'] || k = ['*'] then doubleQuote k
  else k

def listText : Value → Text
  | .indexed es =>
    '(' :: [' '].intercalate (es.map fun (i, t) => '[' :: Text.ofNat i ++ "]=" ++ assignedQuote t) ++ [')']
  | .keyed es =>
    '(' :: (es.flatMap fun (k, t) => '[' :: keyText k ++ "]=" ++ assignedQuote t ++ [' ']) ++ [')']
  | _ => []

def declaration (name : Text) (v : Variable) : Text :=
  let value : Text :=
    match v.value with
    | .absent _ => []
    | .one t => '=' :: assignedQuote t
    | list => '=' :: listText list
  "declare -" ++ letters v ++ ' ' :: name ++ value

def assignment (name : Text) (v : Variable) : Text :=
  match v.value with
  | .absent _ => name
  | .one t => name ++ '=' :: (if t = [] then [] else tracedQuote t)
  | list => name ++ '=' :: listText list

end Variable

end Runbook.Shell
