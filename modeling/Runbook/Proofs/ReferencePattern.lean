import Mathlib.Computability.RegularExpressions
import Runbook.Proofs.Reference

/-!
# The written form of references

A reference is a name, or two names with a dot between them. The check of a written reference cuts it at its
first dot, and its target is found by splitting it at every dot. Both readings accept exactly the texts that
match the pattern, however many dots a text has and wherever they stand.
-/

open List

namespace Runbook

/-! ## The pattern -/

def charRange (first last : Char) : Text :=
  (List.range' first.toNat (last.toNat + 1 - first.toNat)).map Char.ofNat

def oneOf (chars : Text) : RegularExpression Char := chars.foldr (fun c r => .char c + r) 0

def letters : Text := charRange 'A' 'Z' ++ charRange 'a' 'z' ++ ['_']

def digits : Text := charRange '0' '9'

/-- The pattern `[A-Za-z_][A-Za-z0-9_]*`. -/
def namePattern : RegularExpression Char := oneOf letters * .star (oneOf (letters ++ digits))

/-- A name, optionally followed by a dot and another name. -/
def referencePattern : RegularExpression Char := namePattern * (1 + .char '.' * namePattern)

variable {c : Char} {t chars : Text}

theorem mem_charRange (first : Char) {last : Char} (h : last.toNat < 0xD800) :
    c ∈ charRange first last ↔ first.toNat ≤ c.toNat ∧ c.toNat ≤ last.toNat := by
  simp only [charRange, mem_map, mem_range'_1]
  constructor
  · rintro ⟨n, hn, rfl⟩
    have hchar : (Char.ofNat n).toNat = n := by
      rw [Char.ofNat, dif_pos (.inl (by omega))]
      rfl
    omega
  · intro hc
    exact ⟨c.toNat, by omega, Char.ofNat_toNat c⟩

theorem mem_letters_iff : c ∈ letters ↔ isNameStart c = true := by
  rw [letters, mem_append, mem_append, mem_singleton, mem_charRange 'A' (by decide),
    mem_charRange 'a' (by decide)]
  unfold isNameStart Char.isAlpha Char.isUpper Char.isLower
  simp only [Bool.or_eq_true, Bool.and_eq_true, decide_eq_true_eq, beq_iff_eq, ge_iff_le,
    UInt32.le_iff_toNat_le]
  rfl

theorem mem_letters_append_digits_iff : c ∈ letters ++ digits ↔ isNameChar c = true := by
  have hdigit : c ∈ digits ↔ c.isDigit = true := by
    rw [digits, mem_charRange '0' (by decide)]
    unfold Char.isDigit
    simp only [Bool.and_eq_true, decide_eq_true_eq, ge_iff_le, UInt32.le_iff_toNat_le]
    rfl
  rw [mem_append, mem_letters_iff, hdigit]
  simp only [isNameStart, isNameChar, Char.isAlphanum, Bool.or_eq_true]
  exact or_right_comm

theorem mem_oneOf_iff : t ∈ (oneOf chars).matches' ↔ ∃ c ∈ chars, t = [c] := by
  induction chars with
  | nil => simp [oneOf]
  | cons d chars ih =>
    have hcons : t ∈ (oneOf (d :: chars)).matches' ↔ t = [d] ∨ t ∈ (oneOf chars).matches' := Iff.rfl
    rw [hcons, ih, exists_mem_cons_iff]

theorem mem_star_oneOf_iff : t ∈ (oneOf chars).star.matches' ↔ ∀ c ∈ t, c ∈ chars := by
  rw [RegularExpression.matches'_star, Language.mem_kstar]
  constructor
  · rintro ⟨parts, rfl, hparts⟩ c hc
    obtain ⟨part, hpart, hc⟩ := mem_flatten.mp hc
    obtain ⟨d, hd, rfl⟩ := mem_oneOf_iff.mp (hparts part hpart)
    rwa [mem_singleton.mp hc]
  · intro h
    refine ⟨t.map ([·]), by rw [← flatMap_def, flatMap_singleton'], fun part hpart => ?_⟩
    obtain ⟨c, hc, rfl⟩ := mem_map.mp hpart
    exact mem_oneOf_iff.mpr ⟨c, h c hc, rfl⟩

theorem mem_namePattern_iff : t ∈ namePattern.matches' ↔ isIdentifier t = true := by
  rw [namePattern, RegularExpression.matches'_mul, Language.mem_mul]
  constructor
  · rintro ⟨first, hfirst, rest, hrest, rfl⟩
    obtain ⟨c, hc, rfl⟩ := mem_oneOf_iff.mp hfirst
    have hrest : ∀ d ∈ rest, isNameChar d = true :=
      fun d hd => mem_letters_append_digits_iff.mp (mem_star_oneOf_iff.mp hrest d hd)
    simpa [isIdentifier, mem_letters_iff.mp hc] using hrest
  · intro h
    cases t with
    | nil => cases h
    | cons c rest =>
      simp only [isIdentifier, Bool.and_eq_true, all_eq_true] at h
      exact ⟨[c], mem_oneOf_iff.mpr ⟨c, mem_letters_iff.mpr h.1, rfl⟩, rest,
        mem_star_oneOf_iff.mpr fun d hd => mem_letters_append_digits_iff.mpr (h.2 d hd), rfl⟩

/-! ## Targets of names -/

/-- All names of the target are identifiers. -/
def Target.Named : Target → Prop
  | own name => isIdentifier name = true
  | imported owner name => isIdentifier owner = true ∧ isIdentifier name = true

theorem not_dot_of_isIdentifier (h : isIdentifier t = true) : ∀ c ∈ t, (c == '.') = false := by
  intro c hc
  apply beq_false_of_ne
  rintro rfl
  exact absurd (isNameChar_of_isIdentifier h '.' hc) (by decide)

theorem mem_referencePattern_iff :
    t ∈ referencePattern.matches' ↔ ∃ target : Target, target.Named ∧ target.toText = t := by
  rw [referencePattern, RegularExpression.matches'_mul, Language.mem_mul]
  constructor
  · rintro ⟨first, hfirst, rest, hrest, rfl⟩
    have hfirst := mem_namePattern_iff.mp hfirst
    rcases hrest with rfl | hrest
    · exact ⟨.own first, hfirst, (append_nil first).symm⟩
    · obtain ⟨dot, rfl, name, hname, rfl⟩ := Language.mem_mul.mp hrest
      exact ⟨.imported first name, ⟨hfirst, mem_namePattern_iff.mp hname⟩, rfl⟩
  · rintro ⟨target, hnamed, rfl⟩
    cases target with
    | own name => exact ⟨name, mem_namePattern_iff.mpr hnamed, [], .inl rfl, append_nil name⟩
    | imported owner name =>
      have hname : '.' :: name ∈ (RegularExpression.char '.' * namePattern).matches' :=
        Language.append_mem_mul (a := ['.']) rfl (mem_namePattern_iff.mpr hnamed.2)
      exact ⟨owner, mem_namePattern_iff.mpr hnamed.1, '.' :: name, .inr hname, rfl⟩

theorem isReference_iff_named :
    isReference t = true ↔ ∃ target : Target, target.Named ∧ target.toText = t := by
  constructor
  · intro h
    unfold isReference at h
    split at h
    · rename_i owner name hcut
      obtain ⟨d, hd, rfl⟩ := Text.eq_of_cutAt hcut
      obtain rfl : d = '.' := by simpa using hd
      exact ⟨.imported owner name, by simpa [Target.Named] using h, rfl⟩
    · exact ⟨.own t, h, rfl⟩
  · rintro ⟨target, hnamed, rfl⟩
    cases target with
    | own name =>
      have hcut : Text.cutAt (· == '.') name = none := Text.cutAt_eq_none (not_dot_of_isIdentifier hnamed)
      rw [Target.toText, isReference, hcut]
      exact hnamed
    | imported owner name =>
      have hcut : Text.cutAt (· == '.') (owner ++ '.' :: name) = some (owner, name) :=
        Text.cutAt_append (not_dot_of_isIdentifier hnamed.1) rfl name
      rw [Target.toText, isReference, hcut]
      exact Bool.and_eq_true_iff.mpr hnamed

theorem isPart_of_isIdentifier (h : isIdentifier t = true) : IsPart t :=
  ⟨ne_nil_of_isIdentifier h, fun hdot => by simpa using not_dot_of_isIdentifier h _ hdot⟩

/-- The target of a text is the one that is written so, if its names are identifiers. -/
theorem Target.ofText_eq_some_iff {target : Target} (h : target.Named) :
    ofText t = some target ↔ target.toText = t := by
  have hproper : target.Proper := by
    cases target with
    | own name => exact isPart_of_isIdentifier h
    | imported owner name => exact ⟨isPart_of_isIdentifier h.1, isPart_of_isIdentifier h.2⟩
  rw [ofText_iff, and_iff_right hproper]

/-- A written reference is accepted exactly if it matches the pattern, and exactly if it has a target whose
names are identifiers. These names with a dot between them are then the reference as it is written. -/
theorem isReference_iff_target (r : Reference) :
    (isReference r.value = true ↔ r.value ∈ referencePattern.matches') ∧
      (r.value ∈ referencePattern.matches' ↔ ∃ target, r.target = some target ∧ target.Named) ∧
      (isReference r.value = true → ∃ target, r.target = some target ∧ target.toText = r.value) := by
  rw [mem_referencePattern_iff, isReference_iff_named]
  refine ⟨Iff.rfl, ⟨?_, ?_⟩, ?_⟩
  · rintro ⟨target, hnamed, ht⟩
    exact ⟨target, (Target.ofText_eq_some_iff hnamed).mpr ht, hnamed⟩
  · rintro ⟨target, ht, hnamed⟩
    exact ⟨target, hnamed, (Target.ofText_eq_some_iff hnamed).mp ht⟩
  · rintro ⟨target, hnamed, ht⟩
    exact ⟨target, (Target.ofText_eq_some_iff hnamed).mpr ht, ht⟩

theorem isReference_qualified :
    isReference "lib.setup" = true ∧ ("lib.setup" : Text) ∈ referencePattern.matches' ∧
      ∃ target, Reference.target ⟨"lib.setup", ⟨1, 1⟩⟩ = some target ∧ target.toText = "lib.setup" := by
  have h := isReference_iff_target ⟨"lib.setup", ⟨1, 1⟩⟩
  exact ⟨by decide, h.1.mp (by decide), h.2.2 (by decide)⟩

-- A text may have a target and still be no reference.
example : Target.ofText "9.b-c" = some (.imported "9" "b-c") ∧ isReference "9.b-c" = false := by decide

end Runbook
