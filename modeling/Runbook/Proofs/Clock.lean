import Runbook.Clock
import Runbook.Proofs.Text

/-!
# The order of written times

Numbers with equally many digits are ordered as texts as they are by size. Times are written in parts of
fixed width, the greatest first, so their texts are ordered as they follow each other.
-/

open List

namespace Runbook

variable {width n m : Nat}

/-! ## Numbers of fixed width -/

section

variable {s t : Text}

theorem sub_zero_le_of_isDigit {c : Char} (h : c.isDigit = true) : c.toNat - '0'.toNat ≤ 9 := by
  have hc := (Char.isDigit_iff_toNat.mp h).2
  have h0 : '0'.toNat = 48 := rfl
  have h9 : '9'.toNat = 57 := rfl
  omega

theorem ofDigitChars_lt (hs : ∀ c ∈ s, c.isDigit = true) (hlen : s.length = t.length) {m n : Nat}
    (h : m < n) : Nat.ofDigitChars 10 s m < Nat.ofDigitChars 10 t n := by
  induction s generalizing t m n with
  | nil =>
    rw [length_eq_zero_iff.mp hlen.symm]
    exact h
  | cons a s ih =>
    cases t with
    | nil => cases hlen
    | cons b t =>
      have ha := sub_zero_le_of_isDigit (hs a (by simp))
      rw [Nat.ofDigitChars_cons, Nat.ofDigitChars_cons]
      refine ih (fun c hc => hs c (by simp [hc])) (Nat.succ.inj hlen) ?_
      omega

theorem le_iff_ofDigitChars (hs : ∀ c ∈ s, c.isDigit = true) (ht : ∀ c ∈ t, c.isDigit = true)
    (hlen : s.length = t.length) (m : Nat) :
    s.le t = true ↔ Nat.ofDigitChars 10 s m ≤ Nat.ofDigitChars 10 t m := by
  induction s generalizing t m with
  | nil =>
    rw [length_eq_zero_iff.mp hlen.symm]
    simp [Text.le_refl]
  | cons a s ih =>
    cases t with
    | nil => cases hlen
    | cons b t =>
      have hs' : ∀ c ∈ s, c.isDigit = true := fun c hc => hs c (by simp [hc])
      have ht' : ∀ c ∈ t, c.isDigit = true := fun c hc => ht c (by simp [hc])
      have hl : s.length = t.length := Nat.succ.inj hlen
      rw [Text.le_cons_iff, Nat.ofDigitChars_cons, Nat.ofDigitChars_cons]
      by_cases hab : a = b
      · subst hab
        simpa using ih hs' ht' hl _
      · have ha := Char.isDigit_iff_toNat.mp (hs a (by simp))
        have hb := Char.isDigit_iff_toNat.mp (ht b (by simp))
        have hne : a.toNat ≠ b.toNat := fun hn => hab (Char.toNat_inj.mp hn)
        have h0 : '0'.toNat = 48 := rfl
        simp only [hab, false_and, or_false]
        constructor
        · intro hlt
          exact Nat.le_of_lt (ofDigitChars_lt hs' hl (by omega))
        · intro hle
          refine Nat.lt_of_not_le fun hba => ?_
          have hlt : 10 * m + (b.toNat - '0'.toNat) < 10 * m + (a.toNat - '0'.toNat) := by omega
          exact Nat.not_lt_of_le hle (ofDigitChars_lt ht' hl.symm hlt)

end

theorem isDigit_of_mem_padded {c : Char} (h : c ∈ padded width n) : c.isDigit = true := by
  rcases mem_append.mp h with hz | hd
  · rw [eq_of_mem_replicate hz]
    rfl
  · exact Nat.isDigit_of_mem_toDigits (by decide) (by decide) hd

theorem ofDigitChars_replicate_zero (k : Nat) : Nat.ofDigitChars 10 (List.replicate k '0') 0 = 0 := by
  induction k with
  | zero => rfl
  | succ k ih =>
    rw [replicate_succ, Nat.ofDigitChars_cons]
    exact ih

theorem ofDigitChars_padded (width n : Nat) : Nat.ofDigitChars 10 (padded width n) 0 = n := by
  rw [padded, Nat.ofDigitChars_append, ofDigitChars_replicate_zero]
  exact Nat.ofDigitChars_toDigits (by decide) (by decide)

theorem padded_inj {v w : Nat} (h : padded v m = padded w n) : m = n := by
  rw [← ofDigitChars_padded v m, h, ofDigitChars_padded]

theorem le_padded {v w : Nat} (h : (padded v m).length = (padded w n).length) :
    (padded v m).le (padded w n) = true ↔ m ≤ n := by
  rw [le_iff_ofDigitChars (fun _ => isDigit_of_mem_padded) (fun _ => isDigit_of_mem_padded) h 0,
    ofDigitChars_padded, ofDigitChars_padded]

theorem length_padded (h : (Text.ofNat n).length ≤ width) : (padded width n).length = width := by
  rw [padded, length_append, length_replicate]
  omega

/-- Numbers of one width decide the order of what they stand in front of, unless they are equal. -/
theorem le_padded_append (hm : (Text.ofNat m).length ≤ width) (hn : (Text.ofNat n).length ≤ width) (x y : Text)
    :
    Text.le (padded width m ++ x) (padded width n ++ y) = true ↔ m < n ∨ m = n ∧ x.le y = true := by
  have hlen : (padded width m).length = (padded width n).length := by
    rw [length_padded hm, length_padded hn]
  by_cases h : m = n
  · subst h
    simp [Text.le_append_left]
  · rw [Text.le_append_of_ne hlen (fun he => h (padded_inj he)), le_padded hlen]
    omega

theorem length_ofNat_le (width : Nat) (hw : 0 < width) (h : n < Nat.pow 10 width) :
    (Text.ofNat n).length ≤ width :=
  (Nat.length_toDigits_le_iff (by decide) hw).mpr h

/-! ## The calendar -/

namespace Instant

/-- The days from the start of the first year to the start of another, where years start in March. -/
def yearStart (year : Nat) : Nat := 365 * year + year / 4 - year / 100 + year / 400

/-- The year of a cycle of 400 years in which a day of the cycle lies. -/
def yearOfCycle (day : Nat) : Nat := (day - day / 1460 + day / 36524 - day / 146096) / 365

/-- The date of a day of a year, where years start in March. -/
def ofMarch (year day : Nat) : Nat × Nat × Nat :=
  let march := (5 * day + 2) / 153
  let month := if march < 10 then march + 3 else march - 9
  (year + (if month ≤ 2 then 1 else 0), month, day - (153 * march + 2) / 5 + 1)

theorem yearStart_succ (y : Nat) : yearStart y ≤ yearStart (y + 1) ∧ yearStart (y + 1) ≤ yearStart y + 366 := by
  unfold yearStart
  omega

theorem yearStart_mono {y z : Nat} (h : y ≤ z) : yearStart y ≤ yearStart z := by
  induction h with
  | refl => exact Nat.le_refl _
  | step _ ih => exact Nat.le_trans ih (yearStart_succ _).1

theorem yearStart_cycle (cycle y : Nat) : yearStart (cycle * 400 + y) = 146097 * cycle + yearStart y := by
  unfold yearStart
  omega

theorem exists_yearStart {day n : Nat} (h : day < yearStart n) :
    ∃ y < n, yearStart y ≤ day ∧ day < yearStart (y + 1) := by
  induction n with
  | zero => cases h
  | succ n ih =>
    by_cases hn : day < yearStart n
    · obtain ⟨y, hy, hin⟩ := ih hn
      exact ⟨y, Nat.lt_succ_of_lt hy, hin⟩
    · exact ⟨n, Nat.lt_succ_self n, Nat.le_of_not_lt hn, h⟩

theorem yearOfCycle_mono {a b : Nat} (h : a ≤ b) : yearOfCycle a ≤ yearOfCycle b := by
  induction h with
  | refl => exact Nat.le_refl _
  | step _ ih =>
    refine Nat.le_trans ih (Nat.div_le_div_right ?_)
    omega

theorem yearOfCycle_bounds :
    ∀ y < 400, yearOfCycle (yearStart y) = y ∧ yearOfCycle (yearStart (y + 1) - 1) = y := by
  decide +kernel

theorem yearStart_yearOfCycle {day : Nat} (h : day < 146097) :
    yearOfCycle day < 400 ∧ yearStart (yearOfCycle day) ≤ day ∧ day < yearStart (yearOfCycle day + 1) := by
  obtain ⟨y, hy, hle, hlt⟩ := exists_yearStart (n := 400) h
  -- The computed year never falls, so its values at both ends of a year are its values in between.
  obtain ⟨hfirst, hlast⟩ := yearOfCycle_bounds y hy
  have hlow := yearOfCycle_mono hle
  have hhigh := yearOfCycle_mono (Nat.le_sub_one_of_lt hlt)
  have hyear : yearOfCycle day = y := by omega
  rw [hyear]
  exact ⟨hy, hle, hlt⟩

theorem civil_eq (days : Nat) :
    ∃ year day, civil days = ofMarch year day ∧ days + 719468 = yearStart year + day ∧
      days + 719468 < yearStart (year + 1) := by
  have hdm := Nat.div_add_mod (days + 719468) 146097
  have hmod : (days + 719468) % 146097 < 146097 := Nat.mod_lt _ (by decide)
  obtain ⟨h400, hle, hlt⟩ := yearStart_yearOfCycle hmod
  refine ⟨_, _, rfl, ?_, ?_⟩
  · rw [← yearOfCycle, yearStart_cycle]
    unfold yearStart at hle ⊢
    omega
  · rw [← yearOfCycle, Nat.add_assoc, yearStart_cycle]
    omega

theorem ofMarch_lt {y z d e : Nat} (hd : d ≤ 365) (he : e ≤ 365) (h : y < z ∨ y = z ∧ d < e) :
    (ofMarch y d).1 < (ofMarch z e).1 ∨ (ofMarch y d).1 = (ofMarch z e).1 ∧
      ((ofMarch y d).2.1 < (ofMarch z e).2.1 ∨ (ofMarch y d).2.1 = (ofMarch z e).2.1 ∧
        (ofMarch y d).2.2 < (ofMarch z e).2.2) := by
  -- The months from March to December lie in the year that is counted, the other two in the next one.
  have hearly : ∀ march, ¬ march + 3 ≤ 2 := by omega
  have hlate : ∀ n, n ≤ 365 → (5 * n + 2) / 153 - 9 ≤ 2 := by omega
  unfold ofMarch
  dsimp only
  by_cases h₁ : (5 * d + 2) / 153 < 10
  · by_cases h₂ : (5 * e + 2) / 153 < 10
    · simp only [h₁, h₂, hearly, ↓reduceIte]
      omega
    · simp only [h₁, h₂, hearly, hlate e he, ↓reduceIte]
      omega
  · by_cases h₂ : (5 * e + 2) / 153 < 10
    · simp only [h₁, h₂, hearly, hlate d hd, ↓reduceIte]
      omega
    · simp only [h₁, h₂, hlate d hd, hlate e he, ↓reduceIte]
      omega

theorem civil_lt {a b : Nat} (h : a < b) :
    (civil a).1 < (civil b).1 ∨ (civil a).1 = (civil b).1 ∧
      ((civil a).2.1 < (civil b).2.1 ∨ (civil a).2.1 = (civil b).2.1 ∧ (civil a).2.2 < (civil b).2.2) := by
  obtain ⟨y, d, hy, hd, hyn⟩ := civil_eq a
  obtain ⟨z, e, hz, he, hzn⟩ := civil_eq b
  have hlen := (yearStart_succ y).2
  have hlen' := (yearStart_succ z).2
  rw [hy, hz]
  refine ofMarch_lt (by omega) (by omega) ?_
  by_cases hyz : z < y
  · have hstart : yearStart (z + 1) ≤ yearStart y := yearStart_mono hyz
    omega
  · by_cases heq : y = z
    · subst heq
      omega
    · omega

theorem civil_le (days : Nat) : (civil days).2.1 ≤ 12 ∧ (civil days).2.2 ≤ 31 := by
  obtain ⟨year, day, h, hday, hlt⟩ := civil_eq days
  have hlen := (yearStart_succ year).2
  rw [h, ofMarch]
  dsimp only
  split <;> omega

end Instant

/-! ## Times -/

namespace DateTime

def Before (a b : DateTime) : Prop :=
  a.year < b.year ∨ a.year = b.year ∧ (a.month < b.month ∨ a.month = b.month ∧ (a.day < b.day ∨
    a.day = b.day ∧ (a.hour < b.hour ∨ a.hour = b.hour ∧ (a.minute < b.minute ∨
      a.minute = b.minute ∧ a.second < b.second))))

theorem Before.asymm {a b : DateTime} (h : a.Before b) : ¬ b.Before a := by
  simp only [Before] at h ⊢
  omega

structure Fits (d : DateTime) : Prop where
  year : d.year < 10000
  month : d.month < 100
  day : d.day < 100
  hour : d.hour < 100
  minute : d.minute < 100
  second : d.second < 100

theorem Fits.length_compact {d : DateTime} (h : d.Fits) : d.compact.length = 16 := by
  simp only [compact, length_append, length_padded (length_ofNat_le 4 (by decide) h.year),
    length_padded (length_ofNat_le 2 (by decide) h.month), length_padded (length_ofNat_le 2 (by decide) h.day),
    length_padded (length_ofNat_le 2 (by decide) h.hour), length_padded (length_ofNat_le 2 (by decide) h.minute),
    length_padded (length_ofNat_le 2 (by decide) h.second)]
  rfl

theorem Fits.le_compact {a b : DateTime} (ha : a.Fits) (hb : b.Fits) :
    a.compact.le b.compact = true ↔ a.Before b ∨ a = b := by
  simp only [compact, List.append_assoc, Text.le_append_left,
    le_padded_append (length_ofNat_le 4 (by decide) ha.year) (length_ofNat_le 4 (by decide) hb.year),
    le_padded_append (length_ofNat_le 2 (by decide) ha.month) (length_ofNat_le 2 (by decide) hb.month),
    le_padded_append (length_ofNat_le 2 (by decide) ha.day) (length_ofNat_le 2 (by decide) hb.day),
    le_padded_append (length_ofNat_le 2 (by decide) ha.hour) (length_ofNat_le 2 (by decide) hb.hour),
    le_padded_append (length_ofNat_le 2 (by decide) ha.minute) (length_ofNat_le 2 (by decide) hb.minute),
    le_padded_append (length_ofNat_le 2 (by decide) ha.second) (length_ofNat_le 2 (by decide) hb.second),
    Text.le_refl, and_true]
  have heq : a = b ↔ a.year = b.year ∧ a.month = b.month ∧ a.day = b.day ∧ a.hour = b.hour ∧
      a.minute = b.minute ∧ a.second = b.second := by
    cases a
    cases b
    simp
  rw [heq, Before]
  omega

end DateTime

namespace Instant

variable {i j : Instant}

theorem dateTime_eq (i : Instant) :
    i.dateTime = ⟨(civil (i.seconds / 86400)).1, (civil (i.seconds / 86400)).2.1,
      (civil (i.seconds / 86400)).2.2, i.seconds % 86400 / 3600, i.seconds % 86400 / 60 % 60,
      i.seconds % 86400 % 60⟩ := rfl

theorem fits_dateTime (h : i.dateTime.year < 10000) : i.dateTime.Fits := by
  have hcivil := civil_le (i.seconds / 86400)
  refine ⟨h, ?_, ?_, ?_, ?_, ?_⟩
  all_goals
    rw [dateTime_eq]
    dsimp only
    omega

theorem dateTime_before (h : i.seconds < j.seconds) : i.dateTime.Before j.dateTime := by
  simp only [DateTime.Before, dateTime_eq]
  by_cases hday : i.seconds / 86400 = j.seconds / 86400
  · rw [hday]
    omega
  · have hlt : i.seconds / 86400 < j.seconds / 86400 := by omega
    have hcivil := civil_lt hlt
    omega

theorem dateTime_congr (h : i.seconds = j.seconds) : i.dateTime = j.dateTime := by
  rw [dateTime_eq, dateTime_eq, h]

theorem le_compact (hi : i.dateTime.year < 10000) (hj : j.dateTime.year < 10000) :
    i.dateTime.compact.le j.dateTime.compact = true ↔ i.seconds ≤ j.seconds := by
  rw [(fits_dateTime hi).le_compact (fits_dateTime hj)]
  constructor
  · intro h
    refine Nat.le_of_not_lt fun hlt => ?_
    have hafter := dateTime_before hlt
    rcases h with hbefore | heq
    · exact hbefore.asymm hafter
    · rw [heq] at hafter
      exact hafter.asymm hafter
  · intro hle
    rcases Nat.lt_or_eq_of_le hle with hlt | heq
    · exact .inl (dateTime_before hlt)
    · exact .inr (dateTime_congr heq)

theorem compact_inj (hi : i.dateTime.year < 10000) (hj : j.dateTime.year < 10000) :
    i.dateTime.compact = j.dateTime.compact ↔ i.seconds = j.seconds := by
  constructor
  · intro h
    have hij := (le_compact hi hj).mp (by rw [h, Text.le_refl])
    have hji := (le_compact hj hi).mp (by rw [h, Text.le_refl])
    exact Nat.le_antisymm hij hji
  · intro h
    rw [dateTime_congr h]

end Instant

end Runbook
