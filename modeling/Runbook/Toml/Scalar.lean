import Runbook.Toml.Table

/-!
Booleans, numbers and times: a whole run of letters, digits and signs is one of them or an error. Integers
have to fit 64 bits, and other numbers must not be too large for a double.
-/
namespace Runbook.Toml

def isScalarChar (c : Char) : Bool :=
  c.isAlphanum || c == '_' || c == '+' || c == '-' || c == '.' || c == ':'

/-- Digits without the single underscores between them, and what follows. An underscore with no digit behind
it is an error. -/
def digitRun (isDigit : Char → Bool) : Text → Option (Text × Text)
  | [] => none
  | c :: '_' :: rest =>
    if isDigit c then (digitRun isDigit rest).map fun (ds, after) => (c :: ds, after) else none
  | c :: rest =>
    if isDigit c then
      match digitRun isDigit rest, rest.head?.any isDigit with
      | some (ds, after), _ => some (c :: ds, after)
      | none, true => none
      | none, false => some ([c], rest)
    else none

def valueIn (base : Nat) (digits : Text) : Nat :=
  digits.foldl (fun n c =>
    n * base + (if c.isDigit then c.toNat - '0'.toNat else c.toLower.toNat - 'a'.toNat + 10)) 0

def isHexDigit (c : Char) : Bool := c.isDigit || ('a' ≤ c.toLower && c.toLower ≤ 'f')

def isOctDigit (c : Char) : Bool := '0' ≤ c && c ≤ '7'

def isBinDigit (c : Char) : Bool := c == '0' || c == '1'

def wholePart (t : Text) : Option (Text × Text) :=
  match t with
  | '0' :: rest => some (['0'], rest)
  | _ => digitRun Char.isDigit t

def isInteger (t : Text) : Bool :=
  let based (base : Nat) (isDigit : Char → Bool) (rest : Text) : Bool :=
    match digitRun isDigit rest with
    | some (ds, []) => valueIn base ds < Nat.pow 2 63
    | _ => false
  match t with
  | '0' :: 'x' :: rest => based 16 isHexDigit rest
  | '0' :: 'o' :: rest => based 8 isOctDigit rest
  | '0' :: 'b' :: rest => based 2 isBinDigit rest
  | _ =>
    match wholePart t.cutSign.2 with
    | some (ds, []) => valueIn 10 ds < Nat.pow 2 63 || (t.cutSign.1 && valueIn 10 ds == Nat.pow 2 63)
    | _ => false

/-- The decimal `digits · 10 ^ exponent` rounds to a double that is not infinite. -/
def fitsDouble (digits : Text) (exponent : Int) : Bool :=
  let n := valueIn 10 digits
  let size : Int := (Text.ofNat n).length + exponent
  n == 0 || size < 309 || (size == 309 &&
    (if 0 ≤ exponent then n * Nat.pow 10 exponent.toNat < Nat.pow 2 1024 - Nat.pow 2 970
      else n < (Nat.pow 2 1024 - Nat.pow 2 970) * Nat.pow 10 (-exponent).toNat))

def fractionPart (t : Text) : Option (Text × Text) :=
  match t with
  | '.' :: rest => digitRun Char.isDigit rest
  | _ => some ([], t)

def exponentPart (t : Text) : Option (Option Int × Text) :=
  match t with
  | c :: rest =>
    if c = 'e' ∨ c = 'E' then do
      let (ds, after) ← digitRun Char.isDigit (Text.cutSign rest).2
      let n : Int := valueIn 10 ds
      return (some (if (Text.cutSign rest).1 then -n else n), after)
    else return (none, t)
  | [] => return (none, t)

def isFloat (t : Text) : Bool :=
  let (negative, unsigned) := t.cutSign
  if unsigned = "inf" ∨ unsigned = "nan" then true
  else
    match wholePart unsigned with
    | none => false
    | some (whole, rest) =>
      match fractionPart rest with
      | none => false
      | some (fraction, rest) =>
        match exponentPart rest with
        | some (exponent, []) =>
          (!fraction.isEmpty || exponent.isSome) &&
            (negative || fitsDouble (whole ++ fraction) (exponent.getD 0 - fraction.length))
        | _ => false

def twoDigits (lo hi : Nat) (a b : Char) : Bool :=
  a.isDigit && b.isDigit && lo ≤ valueIn 10 [a, b] && valueIn 10 [a, b] ≤ hi

def daysIn (year month : Nat) : Nat :=
  if month = 2 then if year % 4 = 0 ∧ (year % 100 ≠ 0 ∨ year % 400 = 0) then 29 else 28
  else if month = 4 ∨ month = 6 ∨ month = 9 ∨ month = 11 then 30
  else 31

def dateAt : Text → Option Text
  | y1 :: y2 :: y3 :: y4 :: '-' :: m1 :: m2 :: '-' :: d1 :: d2 :: rest =>
    if [y1, y2, y3, y4].all Char.isDigit && twoDigits 1 12 m1 m2 &&
        twoDigits 1 (daysIn (valueIn 10 [y1, y2, y3, y4]) (valueIn 10 [m1, m2])) d1 d2 then some rest
    else none
  | _ => none

def clockAt (lastHour : Nat) : Text → Option Text
  | h1 :: h2 :: ':' :: m1 :: m2 :: ':' :: s1 :: s2 :: rest =>
    if twoDigits 0 lastHour h1 h2 && twoDigits 0 59 m1 m2 && twoDigits 0 60 s1 s2 then
      match rest with
      | '.' :: more =>
        if (more.takeWhile Char.isDigit).isEmpty then none else some (more.dropWhile Char.isDigit)
      | _ => some rest
    else none
  | _ => none

def isOffset : Text → Bool
  | [] => true
  | ['Z'] | ['z'] => true
  | [s, h1, h2, ':', m1, m2] => (s == '+' || s == '-') && twoDigits 0 23 h1 h2 && twoDigits 0 59 m1 m2
  | _ => false

def isClock (withOffset : Bool) (t : Text) : Bool :=
  match clockAt 23 t with
  | some rest => if withOffset then isOffset rest else rest.isEmpty
  | none => false

def isTime (t : Text) : Bool :=
  match dateAt t with
  | some [] => true
  | some (c :: rest) => (c == 'T' || c == 't') && isClock true rest
  | none => isClock false t

/-- The boolean, number or time at the start of the text, and what follows. A date may have its time
behind a blank. -/
def readScalar (t : Text) : Option (Item × Text) :=
  let run := t.takeWhile isScalarChar
  let rest := t.dropWhile isScalarChar
  if run = "true" then some (.boolean true, rest)
  else if run = "false" then some (.boolean false, rest)
  else if isTime run then
    match rest with
    | ' ' :: more =>
      if dateAt run = some [] ∧ isClock true (more.takeWhile isScalarChar) then
        some (.time, more.dropWhile isScalarChar)
      else some (.time, rest)
    | _ => some (.time, rest)
  else if isInteger run ∨ isFloat run then some (.number, rest)
  else none

end Runbook.Toml
