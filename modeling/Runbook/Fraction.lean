import Runbook.Text.Basic

/-!
Numbers with a fraction: read from decimal or hexadecimal text, rounded to a number of binary digits,
and written with a given number of places. All arithmetic is exact; a half goes to the even neighbour.
-/
namespace Runbook

inductive Fraction where
  | finite (negative : Bool) (num den : Nat)
  | infinite (negative : Bool)
  | undefined (negative : Bool)
deriving DecidableEq, Repr

namespace Fraction

/-- The nearest whole number; a half goes to the even one. -/
def roundDiv (num den : Nat) : Nat :=
  let q := num / den
  let twice := 2 * (num % den)
  if twice < den then q
  else if den < twice then q + 1
  else if q % 2 = 0 then q else q + 1

def bits (n : Nat) : Nat := if n = 0 then 0 else n.log2 + 1

/-- The fraction with so many binary digits that comes nearest. -/
def roundTo (precision num den : Nat) : Nat × Nat :=
  if num = 0 then (0, 1)
  else
    -- With `s` as the power of two, the quotient has one or two digits more than wanted.
    let s : Int := (precision : Int) + bits den - bits num
    let scaled (s : Int) : Nat × Nat := if 0 ≤ s then (num * Nat.pow 2 s.toNat, den) else (num, den * Nat.pow 2 (-s).toNat)
    let (a, b) := scaled s
    let s := if Nat.pow 2 precision ≤ a / b then s - 1 else s
    let (a, b) := scaled s
    let m := roundDiv a b
    if 0 ≤ s then (m, Nat.pow 2 s.toNat) else (m * Nat.pow 2 (-s).toNat, 1)

def isNegative : Fraction → Bool
  | finite n _ _ | infinite n | undefined n => n

/-! Reading. -/

def digitOf (c : Char) : Nat :=
  if c.isDigit then c.toNat - '0'.toNat else c.toLower.toNat - 'a'.toNat + 10

def numberOf (base : Nat) (ds : Text) : Nat := ds.foldl (fun n c => n * base + digitOf c) 0

def isHex (c : Char) : Bool := c.isDigit || ('a' ≤ c.toLower && c.toLower ≤ 'f')

/-- An exponent behind its letter: its value, or none if there are no digits. -/
def exponent? (t : Text) : Option (Int × Text) :=
  let (sign, t) := t.cutSign
  let ds := t.takeWhile Char.isDigit
  if ds = [] then none
  else
    let n : Int := numberOf 10 ds
    some (if sign then -n else n, t.drop ds.length)

def exponentLimit : Int := 5000

/-- A number without a sign at the start of a text, and what follows. None if there is no digit. -/
def magnitude? (base : Nat) (isDigit : Char → Bool) (letter : Char) (factor : Nat) (t : Text) :
    Option (Nat × Nat × Text) :=
  let whole := t.takeWhile isDigit
  let after := t.drop whole.length
  let (part, after) : Text × Text :=
    match after with
    | '.' :: rest =>
      let part := rest.takeWhile isDigit
      if whole = [] ∧ part = [] then ([], after) else (part, rest.drop part.length)
    | _ => ([], after)
  if whole = [] ∧ part = [] then none
  else
    let num := numberOf base (whole ++ part)
    let den := Nat.pow base part.length
    let plain : Option (Nat × Nat × Text) := some (num, den, after)
    match after with
    | c :: rest =>
      if c.toLower = letter then
        match exponent? rest with
        | some (e, rest) =>
          let e := max (-exponentLimit) (min exponentLimit e)
          if 0 ≤ e then some (num * Nat.pow factor e.toNat, den, rest) else some (num, den * Nat.pow factor (-e).toNat, rest)
        | none => plain
      else plain
    | [] => plain

def parse (precision : Nat) (t : Text) : Option (Fraction × Text) :=
  let (negative, t) := t.cutSign
  let finish (r : Option (Nat × Nat × Text)) : Option (Fraction × Text) :=
    r.map fun (num, den, rest) =>
      let (a, b) := roundTo precision num den
      (finite negative a b, rest)
  let word (w : Text) : Option Text :=
    if (t.take w.length).map Char.toLower = w then some (t.drop w.length) else none
  match word "infinity", word "inf", word "nan" with
  | some rest, _, _ | none, some rest, _ => some (infinite negative, rest)
  | none, none, some rest => some (undefined negative, rest)
  | none, none, none =>
    match t with
    | '0' :: x :: rest =>
      if x = 'x' ∨ x = 'X' then
        match finish (magnitude? 16 isHex 'p' 2 rest) with
        | some r => some r
        | none => some (finite negative 0 1, x :: rest)
      else finish (magnitude? 10 Char.isDigit 'e' 10 t)
    | _ => finish (magnitude? 10 Char.isDigit 'e' 10 t)

/-! Writing. Signs and widths are for the caller. -/

def pointed (places : Nat) (showsPoint : Bool) (n : Nat) : Text :=
  let ds := Text.ofNat n
  let ds := List.replicate (places + 1 - ds.length) '0' ++ ds
  let whole := ds.take (ds.length - places)
  let part := ds.drop (ds.length - places)
  if places = 0 then (if showsPoint then whole ++ ['.'] else whole) else whole ++ '.' :: part

def fixed (places : Nat) (showsPoint : Bool) (num den : Nat) : Text :=
  pointed places showsPoint (roundDiv (num * Nat.pow 10 places) den)

/-- The greatest power of ten that is not above a positive fraction. -/
def magnitude (num den : Nat) : Int :=
  let guess : Int := (Text.ofNat num).length - (Text.ofNat den).length
  let reaches (e : Int) : Bool :=
    if 0 ≤ e then den * Nat.pow 10 e.toNat ≤ num else den ≤ num * Nat.pow 10 (-e).toNat
  if reaches guess then (if reaches (guess + 1) then guess + 1 else guess) else guess - 1

/-- The first `count` digits of a fraction as a whole number, and the power of ten of the first one. -/
def leading (count num den : Nat) : Nat × Int :=
  if num = 0 then (0, 0)
  else
    let e := magnitude num den
    let shift : Int := (count : Int) - 1 - e
    let n := if 0 ≤ shift then roundDiv (num * Nat.pow 10 shift.toNat) den else roundDiv num (den * Nat.pow 10 (-shift).toNat)
    if Nat.pow 10 count ≤ n then (n / 10, e + 1) else (n, e)

def exponentText (letter : Char) (e : Int) : Text :=
  let ds := Text.ofNat e.natAbs
  letter :: (if e < 0 then '-' else '+') :: (if ds.length < 2 then '0' :: ds else ds)

def scientific (letter : Char) (places : Nat) (showsPoint : Bool) (num den : Nat) : Text :=
  let (n, e) := leading (places + 1) num den
  pointed places showsPoint n ++ exponentText letter e

def trimZeros (t : Text) : Text :=
  if '.' ∈ t then
    match t.reverse.dropWhile (· == '0') with
    | '.' :: rest => rest.reverse
    | rest => rest.reverse
  else t

def general (letter : Char) (digits : Nat) (keepsZeros : Bool) (num den : Nat) : Text :=
  let digits := max digits 1
  let (n, e) := leading digits num den
  if e < -4 ∨ (digits : Int) ≤ e then
    let mantissa := pointed (digits - 1) keepsZeros n
    (if keepsZeros then mantissa else trimZeros mantissa) ++ exponentText letter e
  else
    let places := ((digits : Int) - 1 - e).toNat
    let t := fixed places keepsZeros num den
    if keepsZeros then t else trimZeros t

/-- In hexadecimal, with the first digit between 8 and 15. -/
def hexadecimal (letter : Char) (places : Option Nat) (num den : Nat) : Text :=
  if num = 0 then '0' :: (places.elim [] fun p => if p = 0 then [] else '.' :: List.replicate p '0') ++ [letter, '+', '0']
  else
    let e : Int := (bits num : Int) - bits den
    let reaches (e : Int) : Bool := if 0 ≤ e then den * Nat.pow 2 e.toNat ≤ num else den ≤ num * Nat.pow 2 (-e).toNat
    let e := if reaches e then e else e - 1
    let first := e - 3
    let count := places.getD 15
    let shift : Int := 4 * count - first
    let n := if 0 ≤ shift then roundDiv (num * Nat.pow 2 shift.toNat) den else roundDiv num (den * Nat.pow 2 (-shift).toNat)
    let ds := Nat.toDigits 16 n
    let whole := ds.take (ds.length - count)
    let part := ds.drop (ds.length - count)
    let part := if places.isSome then part else (part.reverse.dropWhile (· == '0')).reverse
    whole ++ (if part = [] then [] else '.' :: part) ++
      [letter, if first < 0 then '-' else '+'] ++ Text.ofNat first.natAbs

end Fraction

end Runbook
