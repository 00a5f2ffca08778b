import Runbook.Program.Lines

/-!
The program that replaces, deletes and squeezes single characters, and the sets that it is given.
-/
namespace Runbook.Program
open Kernel

/-! Sets of characters. -/

inductive SetPart where
  | one (c : Char)
  | range (a b : Char)
  | named (name : Text)
  /-- A character so many times; zero times means as often as needed. -/
  | repeated (c : Char) (count : Nat)
deriving DecidableEq

inductive SetError where
  | reversed (a b : Char)
  | unknownClass (name : Text)
  | badRepeat (count : Text)

def SetError.message : SetError → Text
  | reversed a b =>
    "range-endpoints of '" ++ [a] ++ "-" ++ [b] ++ "' are in reverse collating sequence order"
  | unknownClass name => "invalid character class '" ++ name ++ "'"
  | badRepeat count => "invalid repeat count '" ++ count ++ "' in [c*n] construct"

def unescapeSet : Nat → Text → List (Char × Bool)
  | 0, _ => []
  | _, [] => []
  | fuel + 1, '\\' :: c :: rest =>
    match c with
    | 'a' => ('\x07', true) :: unescapeSet fuel rest
    | 'b' => ('\x08', true) :: unescapeSet fuel rest
    | 'f' => ('\x0c', true) :: unescapeSet fuel rest
    | 'n' => ('\n', true) :: unescapeSet fuel rest
    | 'r' => ('\r', true) :: unescapeSet fuel rest
    | 't' => ('\t', true) :: unescapeSet fuel rest
    | 'v' => ('\x0b', true) :: unescapeSet fuel rest
    | c =>
      if Shell.isOctalDigit c then
        let digits := (c :: rest).take 3 |>.takeWhile Shell.isOctalDigit
        let value := Shell.valueOf 8 digits
        let digits := if value < 256 then digits else digits.take 2
        (Char.ofNat (Shell.valueOf 8 digits), true) :: unescapeSet fuel ((c :: rest).drop digits.length)
      else (c, true) :: unescapeSet fuel rest
  | fuel + 1, c :: rest => (c, false) :: unescapeSet fuel rest

def classNames : List Text :=
  ["alnum", "alpha", "blank", "cntrl", "digit", "graph", "lower", "print", "punct", "space", "upper", "xdigit"]

def upToClose (mark : Char) : List (Char × Bool) → Option (Text × List (Char × Bool))
  | (a, false) :: (']', false) :: rest => if a = mark then some ([], rest) else
      (upToClose mark ((']', false) :: rest)).map fun (t, r) => (a :: t, r)
  | (a, _) :: rest => (upToClose mark rest).map fun (t, r) => (a :: t, r)
  | [] => none

def setParts : Nat → List (Char × Bool) → Except SetError (List SetPart)
  | 0, _ => .ok []
  | _, [] => .ok []
  | fuel + 1, cs =>
    let plain : Except SetError (List SetPart) :=
      match cs with
      | (a, _) :: ('-', false) :: (b, _) :: rest =>
        if b < a then .error (.reversed a b)
        else (setParts fuel rest).map (.range a b :: ·)
      | (a, _) :: rest => (setParts fuel rest).map (.one a :: ·)
      | [] => .ok []
    match cs with
    | ('[', false) :: (':', false) :: rest =>
      match upToClose ':' rest with
      | some (name, rest) =>
        if name ∈ classNames then (setParts fuel rest).map (.named name :: ·) else .error (.unknownClass name)
      | none => plain
    | ('[', false) :: ('=', false) :: rest =>
      match upToClose '=' rest with
      | some ([c], rest) => (setParts fuel rest).map (.one c :: ·)
      | _ => plain
    | ('[', false) :: (c, _) :: ('*', false) :: rest =>
      let digits := (rest.map (·.1)).takeWhile fun d => d ≠ ']'
      match rest.drop digits.length with
      | (']', _) :: rest =>
        if digits.all Char.isDigit then
          let base := if digits.head? = some '0' then 8 else 10
          (setParts fuel rest).map (.repeated c (Shell.valueOf base digits) :: ·)
        else plain
      | _ => plain
    | _ => plain

def parseSet (t : Text) : Except SetError (List SetPart) :=
  let cs := unescapeSet (t.length + 1) t
  setParts (cs.length + 1) cs

def allBytes : List Char := (List.range 256).map Char.ofNat

/-- The characters of a part; one that is repeated as often as needed comes `fill` times. -/
def SetPart.chars (fill : Nat) : SetPart → List Char
  | one c => [c]
  | range a b => (List.range (b.toNat - a.toNat + 1)).map fun k => Char.ofNat (a.toNat + k)
  | named name => allBytes.filter (Shell.inClass name)
  | repeated c 0 => List.replicate fill c
  | repeated c n => List.replicate n c

def setChars (fill : Nat) (ps : List SetPart) : List Char := ps.flatMap (·.chars fill)

def extend (count : Nat) (cs : List Char) : List Char :=
  match cs.getLast? with
  | some c => cs ++ List.replicate (count - cs.length) c
  | none => cs

def caseStarts : Nat → List SetPart → List Nat
  | _, [] => []
  | at_, p :: rest =>
    let here := if p = .named "lower" ∨ p = .named "upper" then [at_] else []
    here ++ caseStarts (at_ + (p.chars 0).length) rest

/-! Replacing. -/

def squeeze (p : Char → Bool) : Option Char → Text → Text × Option Char
  | last, [] => ([], last)
  | last, c :: rest =>
    if last = some c ∧ p c then squeeze p last rest
    else
      let (t, l) := squeeze p (some c) rest
      (c :: t, l)

structure Change where
  deletes : Char → Bool
  replaces : Char → Char
  squeezes : Option (Char → Bool)

def changeFrom (l : Launch) (x : Change) : Nat → Option Char → Proc Unit
  | 0, _ => return ()
  | fuel + 1, last => do
    match ← Proc.read 0 65536 with
    | .error f => fail l ("read error: " ++ f.message)
    | .ok [] => return ()
    | .ok t =>
      let t := (t.filter fun c => !x.deletes c).map x.replaces
      match x.squeezes with
      | none =>
        emit l t
        changeFrom l x fuel last
      | some p =>
        let (t, last) := squeeze p last t
        emit l t
        changeFrom l x fuel last

def tableOf (f : Char → Char) : Array Char := (allBytes.map f).toArray

def member (cs : List Char) : Char → Bool :=
  let table : Array Bool := (allBytes.map fun c => cs.contains c).toArray
  fun c => table.getD c.toNat false

def tr (l : Launch) : Proc Unit := do
  let g ← leadingOptions l (.of "cCdst" "complement=c delete=d squeeze-repeats=s truncate-set1=t")
  let deletes := g.has "d"
  let squeezes := g.has "s"
  let needsOne := (deletes && !squeezes) || (squeezes && !deletes && g.operands.length = 1)
  let least := if needsOne ∧ !(squeezes ∧ deletes) then 1 else 2
  if g.operands.length < least then
    match g.operands.getLast? with
    | none => misuse l "missing operand"
    | some t =>
      let why : Text :=
        if squeezes && deletes then "Two strings must be given when both deleting and squeezing repeats."
        else "Two strings must be given when translating."
      misuse l ("missing operand after " ++ cited t ++ '\n' :: why)
  let most := if needsOne then 1 else 2
  if most < g.operands.length then
    let extra := cited (g.operands.getD most [])
    if most = 1 then
      misuse l ("extra operand " ++ extra ++ "\nOnly one string may be given when deleting without squeezing repeats.")
    else misuse l ("extra operand " ++ extra)
  let first := g.operands.getD 0 []
  let complement := g.has "c" || g.has "C"
  match parseSet first, parseSet (g.operands.getD 1 []) with
  | .error e, _ => fail l e.message
  | _, .error e => fail l e.message
  | .ok ps, .ok qs =>
    if ps.any fun p => p matches .repeated .. then
      fail l "the [c*] repeat construct may not appear in string1"
    let set1 := setChars 0 ps
    let set1 := if complement then allBytes.filter fun c => !member set1 c else set1
    let translates := !deletes && g.operands.length = 2
    let x : Change ←
      if translates then
        let fixed := (setChars 0 qs).length
        let set2 := setChars (set1.length - fixed) qs
        if set2 = [] ∧ !g.has "t" then fail l "when not truncating set1, string2 must be non-empty"
        let isCase (p : SetPart) : Bool := p = .named "lower" || p = .named "upper"
        if qs.any fun q => q matches .named _ && !isCase q then
          fail l "when translating, the only character classes that may appear in\nstring2 are 'upper' and 'lower'"
        if !complement ∧ !((caseStarts 0 qs).all fun k => k ∈ caseStarts 0 ps) then
          fail l "misaligned [:upper:] and/or [:lower:] construct"
        let set2 := if g.has "t" then set2 else extend set1.length set2
        let pairs := set1.zip set2
        let table := tableOf fun c => ((pairs.reverse.find? (·.1 = c)).map (·.2)).getD c
        pure ⟨fun _ => false, fun c => table.getD c.toNat c, if squeezes then some (member set2) else none⟩
      else if deletes then
        let set2 := setChars 0 qs
        pure ⟨member set1, id, if squeezes then some (member set2) else none⟩
      else pure ⟨fun _ => false, id, some (member set1)⟩
    changeFrom l x loopLimit none
    done true

end Runbook.Program
