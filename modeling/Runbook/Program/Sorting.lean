import Runbook.Fraction
import Runbook.Program.Lines

/-!
The program that sorts lines: by whole lines or by keys, in several orders.
-/
namespace Runbook.Program
open Kernel

namespace Sorting

/-! Orders. -/

structure How where
  letters : Text := []

def How.has (h : How) (c : Char) : Bool := c ∈ h.letters

def byBytes : Text → Text → Ordering
  | [], [] => .eq
  | [], _ => .lt
  | _, [] => .gt
  | a :: s, b :: t => if a = b then byBytes s t else if a.toNat < b.toNat then .lt else .gt

def isBlank (c : Char) : Bool := c == ' ' || c == '\t' || c == '\n'

/-- A decimal number at the start of a text: its sign, the digits before and behind the point, and what
follows. -/
def decimalAt (t : Text) : Bool × Text × Text × Text :=
  let t := t.dropWhile isBlank
  let (negative, t) : Bool × Text :=
    match t with
    | '-' :: rest => (true, rest)
    | _ => (false, t)
  let whole := t.takeWhile Char.isDigit
  let rest := t.drop whole.length
  match rest with
  | '.' :: more =>
    let part := more.takeWhile Char.isDigit
    (negative, whole, part, more.drop part.length)
  | _ => (negative, whole, [], rest)

def compareDecimals (a b : Bool × Text × Text) : Ordering :=
  let places := max a.2.2.length b.2.2.length
  let value (x : Bool × Text × Text) : Int :=
    let n : Int := digitsValue (x.2.1 ++ x.2.2 ++ List.replicate (places - x.2.2.length) '0')
    if x.1 then -n else n
  compare (value a) (value b)

def byNumber (a b : Text) : Ordering :=
  let (n, w, p, _) := decimalAt a
  let (m, v, q, _) := decimalAt b
  compareDecimals (n, w, p) (m, v, q)

def unitRank (t : Text) : Nat :=
  match t.head? with
  | some c =>
    match ("kKMGTPEZY".toList).findIdx? (· = c) with
    | some 0 => 1
    | some i => i
    | none => 0
  | none => 0

def byHumanNumber (a b : Text) : Ordering :=
  let (n, w, p, r) := decimalAt a
  let (m, v, q, s) := decimalAt b
  let zero (w p : Text) : Bool := (w ++ p).all (· == '0')
  let rank (negative : Bool) (w p r : Text) : Int :=
    if zero w p then 0 else if negative then -(unitRank r : Int) - 1 else (unitRank r : Int) + 1
  match compare (rank n w p r) (rank m v q s) with
  | .eq => compareDecimals (n, w, p) (m, v, q)
  | o => o

def generalAt (t : Text) : Option Fraction := (Fraction.parse 64 (t.dropWhile isBlank)).map (·.1)

def byGeneralNumber (a b : Text) : Ordering :=
  let rank : Option Fraction → Nat
    | none => 0
    | some (.undefined _) => 1
    | some (.infinite true) => 2
    | some (.finite ..) => 3
    | some (.infinite false) => 4
  let x := generalAt a
  let y := generalAt b
  match compare (rank x) (rank y) with
  | .eq =>
    match x, y with
    | some (.finite n p q), some (.finite m r s) =>
      let left : Int := if n then -(p * s : Nat) else (p * s : Nat)
      let right : Int := if m then -(r * q : Nat) else (r * q : Nat)
      compare left right
    | _, _ => .eq
  | o => o

def monthsShort : List Text :=
  ["JAN", "FEB", "MAR", "APR", "MAY", "JUN", "JUL", "AUG", "SEP", "OCT", "NOV", "DEC"]

def monthRank (t : Text) : Nat :=
  let w := ((t.dropWhile isBlank).take 3).map Char.toUpper
  match monthsShort.findIdx? (· = w) with
  | some i => i + 1
  | none => 0

def versionRank : Option Char → Int
  | none => 0
  | some c =>
    if c.isDigit then 0 else if c.isAlpha then c.toNat else if c = '~' then -1 else (c.toNat : Int) + 256

def byVersion : Nat → Text → Text → Ordering
  | 0, _, _ => .eq
  | _, [], [] => .eq
  | fuel + 1, a, b =>
    let isOther (t : Text) : Bool := t.head?.any fun c => !c.isDigit
    if isOther a ∨ isOther b then
      match compare (versionRank a.head?) (versionRank b.head?) with
      | .eq => byVersion fuel (a.drop 1) (b.drop 1)
      | o => o
    else
      let x := a.takeWhile Char.isDigit
      let y := b.takeWhile Char.isDigit
      match compare (digitsValue x) (digitsValue y) with
      | .eq => byVersion fuel (a.drop x.length) (b.drop y.length)
      | o => o

def counted (h : How) (t : Text) : Text :=
  let kept := t.filter fun c =>
    (!h.has 'd' || c.isAlphanum || isBlank c) && (!h.has 'i' || Shell.isPrintable c)
  if h.has 'f' then kept.map Char.toUpper else kept

def chanceOf (t : Text) : Nat := t.foldl (fun n c => (n * 1103515245 + c.toNat * 12345 + 7) % 4294967291) 17

def compareKeys (h : How) (a b : Text) : Ordering :=
  let o :=
    if h.has 'n' then byNumber a b
    else if h.has 'h' then byHumanNumber a b
    else if h.has 'g' then byGeneralNumber a b
    else if h.has 'M' then compare (monthRank a) (monthRank b)
    else if h.has 'V' then byVersion (a.length + b.length + 1) a b
    else if h.has 'R' then compare (chanceOf a) (chanceOf b)
    else byBytes (counted h a) (counted h b)
  if h.has 'r' then o.swap else o

/-! Keys. -/

/-- Where a key starts and ends, counted in fields and characters from zero. An end with no character
is the end of its field. -/
structure Key where
  startField : Nat
  startChar : Nat
  endField : Option (Nat × Nat)
  how : How
  startSkips : Bool
  endSkips : Bool

def skipFields (mark : Option Char) : Nat → Text → Text
  | 0, t => t
  | n + 1, t =>
    match mark with
    | some m => skipFields mark n ((t.dropWhile (· ≠ m)).drop 1)
    | none => skipFields mark n ((t.dropWhile isBlank).dropWhile fun c => !isBlank c)

def endAt (mark : Option Char) (field char : Nat) (skips : Bool) (line : Text) : Nat :=
  if char = 0 then
    match mark with
    | some m =>
      let rest := skipFields mark field line
      line.length - (rest.dropWhile (· ≠ m)).length
    | none => line.length - (skipFields none (field + 1) line).length
  else
    let rest := skipFields mark field line
    let rest := if skips then rest.dropWhile isBlank else rest
    min line.length (line.length - rest.length + char)

def Key.part (mark : Option Char) (k : Key) (line : Text) : Text :=
  let rest := skipFields mark k.startField line
  let rest := if k.startSkips then rest.dropWhile isBlank else rest
  let start := line.length - (rest.drop k.startChar).length
  let stop :=
    match k.endField with
    | some (f, c) => endAt mark f c k.endSkips line
    | none => line.length
  (line.take stop).drop start

inductive KeyError where
  | badStart (t : Text)
  | zeroField (t : Text)
  | zeroChar (t : Text)
  | stray (t : Text)

def KeyError.message : KeyError → Text
  | badStart t => "invalid number at field start: invalid count at start of " ++ cited t
  | zeroField t => "field number is zero: invalid field specification " ++ cited t
  | zeroChar t => "character offset is zero: invalid field specification " ++ cited t
  | stray t => "stray character in field spec: invalid field specification " ++ cited t

def keyLetters : Text := "bdfghiMnRrV"

def side (whole t : Text) : Except KeyError (Nat × Nat × Text × Text) := do
  let digits := t.takeWhile Char.isDigit
  if digits = [] then throw (.badStart t)
  let field := digitsValue digits
  if field = 0 then throw (.zeroField whole)
  let rest := t.drop digits.length
  let (char, rest) ←
    match rest with
    | '.' :: more =>
      let ds := more.takeWhile Char.isDigit
      if ds = [] then throw (.badStart more)
      pure (digitsValue ds, more.drop ds.length)
    | _ => pure (0, rest)
  let letters := rest.takeWhile fun c => c ∈ keyLetters
  return (field, char, letters, rest.drop letters.length)

def parseKey (t : Text) : Except KeyError Key := do
  let (f, c, letters, rest) ← side t t
  let hasChar := (t.dropWhile Char.isDigit).head? = some '.'
  if hasChar ∧ c = 0 then throw (.zeroChar t)
  match rest with
  | [] => return ⟨f - 1, c - 1, none, ⟨letters⟩, 'b' ∈ letters, false⟩
  | ',' :: more =>
    let (g, d, others, left) ← side t more
    if left ≠ [] then throw (.stray t)
    return ⟨f - 1, c - 1, some (g - 1, d), ⟨letters ++ others⟩, 'b' ∈ letters, 'b' ∈ others⟩
  | _ => throw (.stray t)

/-! Sorting. -/

structure Plan where
  keys : List Key
  mark : Option Char
  how : How
  isUnique : Bool
  isStable : Bool

def compareByKeys (mark : Option Char) (a b : Text) : List Key → Ordering
  | [] => .eq
  | k :: rest =>
    match compareKeys k.how (k.part mark a) (k.part mark b) with
    | .eq => compareByKeys mark a b rest
    | o => o

def Plan.compare (p : Plan) (a b : Text) : Ordering :=
  let o := compareByKeys p.mark a b p.keys
  if o ≠ .eq ∨ p.isUnique ∨ p.isStable then o
  else if p.how.has 'r' then (byBytes a b).swap
  else byBytes a b

def dropRepeats (p : Plan) : List Text → List Text
  | a :: b :: rest => if p.compare a b = .eq then dropRepeats p (a :: rest) else a :: dropRepeats p (b :: rest)
  | lines => lines
termination_by lines => lines.length

def Plan.sort (p : Plan) (lines : List Text) : List Text :=
  let sorted := lines.mergeSort fun a b => p.compare a b ≠ .gt
  if p.isUnique then dropRepeats p sorted else sorted

def firstDisorder (p : Plan) : Nat → List Text → Option (Nat × Text)
  | n, a :: b :: rest =>
    let o := p.compare a b
    if o = .gt ∨ (p.isUnique ∧ o = .eq) then some (n + 1, b) else firstDisorder p (n + 1) (b :: rest)
  | _, _ => none

end Sorting

open Sorting in
def sortPlan (l : Launch) (g : Given) : Proc Plan := do
  let general : Text := g.options.flatMap fun (k, _) => if k.length = 1 ∧ k.all (· ∈ keyLetters) then k else []
  let mark ←
    match g.last? "t" with
    | none => pure none
    | some [] => fail l "empty tab" 2
    | some ['\\', '0'] => pure (some '\x00')
    | some [c] => pure (some c)
    | some t => fail l ("multi-character tab " ++ cited t) 2
  let mut keys : List Key := []
  for (k, t) in g.options do
    if k = ['k'] then
      match parseKey t with
      | .ok key =>
        let key := if key.how.letters = [] then
            { key with how := ⟨general⟩, startSkips := 'b' ∈ general, endSkips := 'b' ∈ general }
          else key
        keys := keys ++ [key]
      | .error e => fail l e.message 2
  let all := if keys.isEmpty then [⟨0, 0, none, ⟨general⟩, 'b' ∈ general, false⟩] else keys
  return ⟨all, mark, ⟨general⟩, g.has "u", g.has "s"⟩

open Sorting in
def sort (l : Launch) : Proc Unit := do
  let g ← options l (.of "bcCdfghik:mMno:rRsS:t:T:uVz"
    ("ignore-leading-blanks=b check::=c dictionary-order=d ignore-case=f general-numeric-sort=g " ++
      "human-numeric-sort=h ignore-nonprinting=i key:=k merge=m month-sort=M numeric-sort=n output:=o reverse=r " ++
      "random-sort=R stable=s buffer-size:=S field-separator:=t temporary-directory:=T unique=u version-sort=V " ++
      "zero-terminated=z sort: parallel: debug")) 2
  let p ← sortPlan l g
  let stop := g.stop
  let paths := g.inputs
  let mut lines : List Text := []
  for path in paths do
    match ← readOperand path with
    | .ok t => lines := lines ++ linesOf stop t
    | .error .isDirectory => fail l ("read failed: " ++ shown path ++ ": Is a directory") 2
    | .error f => fail l ("cannot read: " ++ shown path ++ ": " ++ f.message) 2
  if g.has "c" ∨ g.has "C" then
    match firstDisorder p 1 lines with
    | none => done true
    | some (n, line) =>
      let quiet := g.has "C" || (g.last? "c").any fun how => how = "quiet".toList ∨ how = "silent".toList
      if !quiet then say l ((paths.headD []) ++ ":" ++ Text.ofNat n ++ ": disorder: " ++ line)
      done false
  else
    let out := (p.sort lines).flatMap (· ++ [stop])
    match g.last? "o" with
    | none => emit l out 2
    | some path =>
      match ← openOutput path .forWriting with
      | .ok fd =>
        let _ ← Proc.write fd out
        closeFile fd
      | .error f => fail l ("open failed: " ++ shown path ++ ": " ++ f.message) 2
    done true

end Runbook.Program
