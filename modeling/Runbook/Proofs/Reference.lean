import Runbook.Proofs.Lines
import Runbook.Source.Reference

/-!
# Names and references

The characters of a name are never blank, so a name or a reference is not touched by trimming and ends
where the next blank stands.
-/

open List

namespace Runbook

variable {t : Text}

theorem isNameChar_of_isNameStart {c : Char} (h : isNameStart c = true) : isNameChar c = true := by
  simp only [isNameStart, isNameChar, Bool.or_eq_true, Char.isAlphanum] at h ⊢
  exact h.imp_left Or.inl

theorem isBlank_of_isNameChar {c : Char} (h : isNameChar c = true) : isBlank c = false := by
  unfold isNameChar Char.isAlphanum Char.isAlpha Char.isUpper Char.isLower Char.isDigit at h
  simp only [Bool.or_eq_true, Bool.and_eq_true, decide_eq_true_eq, beq_iff_eq, ge_iff_le,
    UInt32.le_iff_toNat_le] at h
  change (((65 ≤ c.toNat ∧ c.toNat ≤ 90) ∨ (97 ≤ c.toNat ∧ c.toNat ≤ 122)) ∨
    (48 ≤ c.toNat ∧ c.toNat ≤ 57)) ∨ c = '_' at h
  have hrange : 48 ≤ c.toNat ∧ c.toNat ≤ 122 := by
    rcases h with h | rfl
    · omega
    · decide
  unfold isBlank isBlankPoint
  grind

theorem isNameChar_of_isIdentifier (h : isIdentifier t = true) : ∀ c ∈ t, isNameChar c = true := by
  cases t with
  | nil => simp
  | cons c rest =>
    simp only [isIdentifier, Bool.and_eq_true, all_eq_true] at h
    intro d hd
    rcases mem_cons.mp hd with rfl | hd
    · exact isNameChar_of_isNameStart h.1
    · exact h.2 d hd

theorem ne_nil_of_isIdentifier (h : isIdentifier t = true) : t ≠ [] := by
  rintro rfl
  cases h

theorem isNameChar_of_isReference (h : isReference t = true) : ∀ c ∈ t, isNameChar c = true ∨ c = '.' := by
  unfold isReference at h
  split at h
  · rename_i owner name hcut
    obtain ⟨d, hd, rfl⟩ := Text.eq_of_cutAt hcut
    simp only [Bool.and_eq_true] at h
    intro c hc
    rcases mem_append.mp hc with hc | hc
    · exact .inl (isNameChar_of_isIdentifier h.1 c hc)
    · rcases mem_cons.mp hc with rfl | hc
      · exact .inr (by simpa using hd)
      · exact .inl (isNameChar_of_isIdentifier h.2 c hc)
  · exact fun c hc => .inl (isNameChar_of_isIdentifier h c hc)

theorem isBlank_of_isReference (h : isReference t = true) : ∀ c ∈ t, isBlank c = false := by
  intro c hc
  rcases isNameChar_of_isReference h c hc with hn | rfl
  · exact isBlank_of_isNameChar hn
  · decide

theorem ne_nil_of_isReference (h : isReference t = true) : t ≠ [] := by
  rintro rfl
  cases h

/-! ## Targets -/

/-- A part of a reference as it is written: not empty, and without a dot. -/
def IsPart (t : Text) : Prop := t ≠ [] ∧ '.' ∉ t

def Target.Proper : Target → Prop
  | .own name => IsPart name
  | .imported owner name => IsPart owner ∧ IsPart name

theorem Target.ofText_iff {target : Target} : ofText t = some target ↔ target.Proper ∧ target.toText = t := by
  constructor
  · intro h
    have hjoin : ['.'].intercalate (t.splitOn '.') = t := intercalate_splitOn '.'
    have hdot : ∀ part ∈ t.splitOn '.', '.' ∉ part := fun _ => Text.not_mem_of_mem_splitOn
    simp only [ofText] at h
    split at h
    · rename_i name hp
      rw [hp, intercalate_singleton] at hjoin
      split at h
      · cases h
      · rename_i hne
        cases h
        exact ⟨⟨hne, hdot name (by simp [hp])⟩, hjoin⟩
    · rename_i owner name hp
      rw [hp, intercalate_cons_cons, intercalate_singleton] at hjoin
      split at h
      · cases h
      · rename_i hne
        obtain ⟨howner, hname⟩ := not_or.mp hne
        cases h
        exact ⟨⟨⟨howner, hdot owner (by simp [hp])⟩, hname, hdot name (by simp [hp])⟩, by simpa [toText] using hjoin⟩
    · cases h
  · rintro ⟨hproper, rfl⟩
    cases target with
    | own name =>
      rw [toText, ofText, splitOn_eq_singleton hproper.2]
      exact if_neg hproper.1
    | imported owner name =>
      obtain ⟨⟨howner, hdot⟩, hname, hdot'⟩ := hproper
      rw [toText, ofText, splitOn_append_cons_self, splitOn_eq_singleton hdot, splitOn_eq_singleton hdot']
      simp [howner, hname]

theorem Target.toText_of_ofText {target : Target} (h : ofText t = some target) : target.toText = t :=
  (ofText_iff.mp h).2

/-- The reference is the text of the target, whose parts are not empty and hold no dot. -/
def Reference.Spells (r : Reference) (target : Target) : Prop := target.Proper ∧ target.toText = r.value

theorem Reference.target_iff {r : Reference} {target : Target} : r.target = some target ↔ r.Spells target :=
  Target.ofText_iff

end Runbook
