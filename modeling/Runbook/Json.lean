import Runbook.Text.Basic

/-!
JSON values and their strict reader. Of a number only the integer is kept, if it is written as one. A string
with half of a surrogate pair is well formed, but has no text.
-/
namespace Runbook

inductive Json where
  | null
  | bool (value : Bool)
  | number (integer : Option Int)
  | string (text : Option Text)
  | array (items : List Json)
  | object (members : List (Option Text × Json))

namespace Json

def isSpace (c : Char) : Bool := c == ' ' || c == '\t' || c == '\n' || c == '\r'

def skipSpace (t : Text) : Text := t.dropWhile isSpace

def hexDigit (c : Char) : Option Nat :=
  if c.isDigit then some (c.toNat - '0'.toNat)
  else if 'a' ≤ c ∧ c ≤ 'f' then some (c.toNat - 'a'.toNat + 10)
  else if 'A' ≤ c ∧ c ≤ 'F' then some (c.toNat - 'A'.toNat + 10)
  else none

def hexUnit (a b c d : Char) : Option Nat := do
  return (((← hexDigit a) * 16 + (← hexDigit b)) * 16 + (← hexDigit c)) * 16 + (← hexDigit d)

/-- What one written piece of a string stands for: a character, or a code unit by its number. -/
inductive Piece where
  | char (c : Char)
  | unit (n : Nat)

def escaped : Char → Option Char
  | '"' => some '"'
  | '\\' => some '\\'
  | '/' => some '/'
  | 'b' => some '\x08'
  | 'f' => some '\x0c'
  | 'n' => some '\n'
  | 'r' => some '\r'
  | 't' => some '\t'
  | _ => none

def readPieces : Text → Option (List Piece × Text)
  | [] => none
  | '"' :: rest => some ([], rest)
  | '\\' :: 'u' :: a :: b :: c :: d :: rest => do
    let n ← hexUnit a b c d
    let (pieces, after) ← readPieces rest
    return (.unit n :: pieces, after)
  | '\\' :: e :: rest => do
    let c ← escaped e
    let (pieces, after) ← readPieces rest
    return (.char c :: pieces, after)
  | c :: rest =>
    if c.toNat < 0x20 ∨ c = '\\' then none
    else do
      let (pieces, after) ← readPieces rest
      return (.char c :: pieces, after)

def isHighSurrogate (n : Nat) : Bool := 0xD800 ≤ n && n ≤ 0xDBFF

def isLowSurrogate (n : Nat) : Bool := 0xDC00 ≤ n && n ≤ 0xDFFF

/-- The text of the pieces; none if half of a surrogate pair stands alone. -/
def piecesText : List Piece → Option Text
  | [] => some []
  | .char c :: rest => (piecesText rest).map (c :: ·)
  | .unit n :: rest =>
    if isHighSurrogate n then
      match rest with
      | .unit m :: rest =>
        if isLowSurrogate m then
          (piecesText rest).map (Char.ofNat (0x10000 + (n - 0xD800) * 0x400 + (m - 0xDC00)) :: ·)
        else none
      | _ => none
    else if isLowSurrogate n then none
    else (piecesText rest).map (Char.ofNat n :: ·)

def readDigits (t : Text) : Option (Text × Text) :=
  let run := t.takeWhile Char.isDigit
  if run = [] then none else some (run, t.dropWhile Char.isDigit)

def readFraction (t : Text) : Option (Bool × Text) :=
  match t with
  | '.' :: rest => (readDigits rest).map fun (_, after) => (true, after)
  | _ => some (false, t)

def readExponent (t : Text) : Option (Bool × Text) :=
  match t with
  | c :: rest =>
    if c = 'e' ∨ c = 'E' then
      let unsigned :=
        match rest with
        | s :: more => if s = '+' ∨ s = '-' then more else rest
        | [] => rest
      (readDigits unsigned).map fun (_, after) => (true, after)
    else some (false, t)
  | [] => some (false, t)

def readNumber (t : Text) : Option (Option Int × Text) := do
  let negative := t.head? = some '-'
  let (run, rest) ← readDigits (if negative then t.drop 1 else t)
  if run.head? = some '0' ∧ run.length ≠ 1 then none
  else
    let (hasFraction, rest) ← readFraction rest
    let (hasExponent, rest) ← readExponent rest
    let n := digitsValue run
    if hasFraction || hasExponent || (negative && n == 0) then return (none, rest)
    else return (some (if negative then -(n : Int) else n), rest)

mutual

/-- One value and what follows it. `fuel` bounds the nesting and the number of parts. -/
def readValue : Nat → Text → Option (Json × Text)
  | 0, _ => none
  | fuel + 1, t =>
    match skipSpace t with
    | '"' :: rest => do
      let (pieces, after) ← readPieces rest
      return (.string (piecesText pieces), after)
    | '[' :: rest =>
      match skipSpace rest with
      | ']' :: after => some (.array [], after)
      | _ => (readElements fuel rest).map fun (items, after) => (.array items, after)
    | '{' :: rest =>
      match skipSpace rest with
      | '}' :: after => some (.object [], after)
      | _ => (readMembers fuel rest).map fun (ms, after) => (.object ms, after)
    | 'n' :: 'u' :: 'l' :: 'l' :: after => some (.null, after)
    | 't' :: 'r' :: 'u' :: 'e' :: after => some (.bool true, after)
    | 'f' :: 'a' :: 'l' :: 's' :: 'e' :: after => some (.bool false, after)
    | t => (readNumber t).map fun (n, after) => (.number n, after)

def readElements : Nat → Text → Option (List Json × Text)
  | 0, _ => none
  | fuel + 1, t => do
    let (item, rest) ← readValue fuel t
    match skipSpace rest with
    | ',' :: more =>
      let (items, after) ← readElements fuel more
      return (item :: items, after)
    | ']' :: after => return ([item], after)
    | _ => none

def readMembers : Nat → Text → Option (List (Option Text × Json) × Text)
  | 0, _ => none
  | fuel + 1, t =>
    match skipSpace t with
    | '"' :: rest => do
      let (pieces, rest) ← readPieces rest
      match skipSpace rest with
      | ':' :: rest =>
        let (item, rest) ← readValue fuel rest
        match skipSpace rest with
        | ',' :: more =>
          let (ms, after) ← readMembers fuel more
          return ((piecesText pieces, item) :: ms, after)
        | '}' :: after => return ([(piecesText pieces, item)], after)
        | _ => none
      | _ => none
    | _ => none

end

def parse (t : Text) : Option Json := do
  let (v, after) ← readValue (t.length + 1) t
  if skipSpace after = [] then some v else none

end Json

end Runbook
