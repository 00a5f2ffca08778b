/-!
Text as a list of characters: cutting it at a character, finding one text inside another, and the
byte widths that columns are counted in.
-/
namespace Runbook

/-- Text is a list of characters. A string literal stands for its characters. -/
abbrev Text := List Char

instance : Coe String Text := ⟨String.toList⟩

instance : LawfulBEq Text := inferInstance

def digitsValue (digits : Text) : Nat := Nat.ofDigitChars 10 digits 0

def natural? (t : Text) : Option Nat := if t ≠ [] ∧ t.all Char.isDigit then some (digitsValue t) else none

namespace Text

def byteLength (t : Text) : Nat := t.foldl (fun n c => n + c.utf8Size) 0

/-- The parts before and after the first character that satisfies `p`. -/
def cutAt (p : Char → Bool) : Text → Option (Text × Text)
  | [] => none
  | c :: rest => if p c then some ([], rest) else (cutAt p rest).map fun (a, b) => (c :: a, b)

theorem length_lt_of_cutAt {p : Char → Bool} {t a b : Text} (h : cutAt p t = some (a, b)) :
    b.length < t.length := by
  induction t generalizing a b with
  | nil => simp [cutAt] at h
  | cons c rest ih =>
    simp only [cutAt] at h
    split at h
    · simp only [Option.some.injEq, Prod.mk.injEq] at h
      simp [← h.2]
    · simp only [Option.map_eq_some_iff, Prod.exists, Prod.mk.injEq] at h
      obtain ⟨a', b', hb, -, rfl⟩ := h
      exact Nat.lt_succ_of_lt (ih hb)

/-- The parts before and after the last character that satisfies `p`. -/
def cutAtLast (p : Char → Bool) : Text → Option (Text × Text)
  | [] => none
  | c :: rest =>
    match cutAtLast p rest with
    | some (a, b) => some (c :: a, b)
    | none => if p c then some ([], rest) else none

/-- Whether a number has a minus sign, and what stands behind its sign. -/
def cutSign (t : Text) : Bool × Text :=
  match t with
  | '-' :: rest => (true, rest)
  | '+' :: rest => (false, rest)
  | _ => (false, t)

/-- The parts before and after the first occurrence of `needle`. -/
def cut (needle : Text) : Text → Option (Text × Text)
  | [] => if needle = [] then some ([], []) else none
  | c :: rest =>
    match needle.isPrefixOf? (c :: rest) with
    | some after => some ([], after)
    | none => (cut needle rest).map fun (a, b) => (c :: a, b)

def contains (needle t : Text) : Bool := (cut needle t).isSome

def endsWith (t tail : Text) : Bool := tail.isSuffixOf t

def startsWith (t head : Text) : Bool := head.isPrefixOf t

/-- The lexicographic order of lists by code point, which is also the order of the UTF-8 bytes. -/
def le (s t : Text) : Bool := @decide (List.le s t) (List.decidableLE s t)

def ofNat (n : Nat) : Text := Nat.toDigits 10 n

/-- The decimal digits of an integer, after a minus sign if it is negative. -/
def ofInt : Int → Text
  | .ofNat n => ofNat n
  | .negSucc n => '-' :: ofNat (n + 1)

def times (n : Nat) (t : Text) : Text := (List.replicate n t).flatten

end Text

end Runbook
