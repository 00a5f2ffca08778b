import Runbook.Text.Basic

/-!
Permission bits: how they are written, and what a change of them says.
-/
namespace Runbook.Program.Mode

def triple (bits : Nat) (isSpecial : Bool) (withRun without : Char) : Text :=
  [ if bits.testBit 2 then 'r' else '-', if bits.testBit 1 then 'w' else '-',
    if isSpecial then (if bits.testBit 0 then withRun else without) else if bits.testBit 0 then 'x' else '-' ]

def letters (mode : Nat) : Text :=
  triple (mode / 64) (mode.testBit 11) 's' 'S' ++ triple (mode / 8) (mode.testBit 10) 's' 'S' ++
    triple mode (mode.testBit 9) 't' 'T'

def octal (mode : Nat) : Text := Nat.toDigits 8 mode

def fourDigits (mode : Nat) : Text :=
  List.replicate (4 - (octal mode).length) '0' ++ octal mode

structure Clause where
  who : Nat
  /-- Nobody was named, so that the mask counts. -/
  isMasked : Bool
  sign : Char
  bits : Nat
  /-- Running is allowed only where it was allowed to someone, or for directories. -/
  runsIfAny : Bool
  /-- The bits are those that someone has. -/
  copies : Option Nat

inductive Change where
  | exact (mode : Nat)
  | clauses (cs : List Clause)

def whoBits (c : Char) : Option Nat :=
  match c with
  | 'u' => some 0o4700
  | 'g' => some 0o2070
  | 'o' => some 0o1007
  | 'a' => some 0o7777
  | _ => none

def permissionBits (c : Char) : Option Nat :=
  match c with
  | 'r' => some 0o444
  | 'w' => some 0o222
  | 'x' => some 0o111
  | 's' => some 0o6000
  | 't' => some 0o1000
  | _ => none

def isSign (c : Char) : Bool := c == '+' || c == '-' || c == '='

def permissions (who : Nat) (isMasked : Bool) (sign : Char) (t : Text) : Option Clause :=
  match t with
  | ['u'] => some ⟨who, isMasked, sign, 0, false, some 6⟩
  | ['g'] => some ⟨who, isMasked, sign, 0, false, some 3⟩
  | ['o'] => some ⟨who, isMasked, sign, 0, false, some 0⟩
  | t =>
    let step (got : Option Clause) (c : Char) : Option Clause :=
      got.bind fun k =>
        if c = 'X' then some { k with runsIfAny := true }
        else (permissionBits c).map fun b => { k with bits := k.bits ||| b }
    t.foldl step (some ⟨who, isMasked, sign, 0, false, none⟩)

def signedParts : Nat → Text → Option (List (Char × Text))
  | 0, _ => none
  | _, [] => some []
  | fuel + 1, c :: rest =>
    if isSign c then
      let body := rest.takeWhile (!isSign ·)
      (signedParts fuel (rest.drop body.length)).map ((c, body) :: ·)
    else none

def part (t : Text) : Option (List Clause) :=
  let named := t.takeWhile (!isSign ·)
  let rest := t.drop named.length
  let who := named.foldl (fun got c => got.bind fun n => (whoBits c).map (n ||| ·)) (some 0)
  match who, signedParts (rest.length + 1) rest with
  | some who, some (p :: ps) =>
    (p :: ps).mapM fun (sign, body) => permissions (if named = [] then 0o7777 else who) (named = []) sign body
  | _, _ => none

def parse? (t : Text) : Option Change :=
  if t ≠ [] ∧ t.all (fun c => '0' ≤ c && c ≤ '7') then
    let n := t.foldl (fun n c => n * 8 + (c.toNat - '0'.toNat)) 0
    if n ≤ 0o7777 then some (.exact n) else none
  else
    match (t.splitOn ',').mapM part with
    | some cs => some (.clauses cs.flatten)
    | none => none

def clauseBits (isDirectory : Bool) (mask mode : Nat) (k : Clause) : Nat :=
  let copied :=
    match k.copies with
    | some shift =>
      let three := (mode >>> shift) &&& 7
      three * 64 + three * 8 + three
    | none => 0
  let run := if k.runsIfAny ∧ (isDirectory ∨ mode &&& 0o111 ≠ 0) then 0o111 else 0
  let all := (k.bits ||| copied ||| run) &&& k.who
  if k.isMasked then all &&& (0o7777 ^^^ mask) else all

def applyClause (isDirectory : Bool) (mask mode : Nat) (k : Clause) : Nat :=
  let bits := clauseBits isDirectory mask mode k
  match k.sign with
  | '+' => mode ||| bits
  | '-' => mode &&& (0o7777 ^^^ bits)
  | _ =>
    let kept := if isDirectory then 0o6000 else 0
    let cleared := k.who &&& (0o7777 ^^^ kept)
    (mode &&& (0o7777 ^^^ cleared)) ||| bits

def apply (isDirectory : Bool) (mask mode : Nat) : Change → Nat
  | .exact n => n
  | .clauses cs => cs.foldl (applyClause isDirectory mask) mode

end Runbook.Program.Mode
