import Mathlib.Data.List.TakeWhile
import Runbook.Proofs.Text
import Runbook.Text.Blank
import Runbook.Text.Lines

/-!
# Lines and blanks

How a text is cut into lines, and what trimming leaves of a line: lines never hold a line feed, a text
that ends in a line feed can be followed by any other, and a trimmed text is one without blanks at its
ends.
-/

open List

namespace Runbook.Text

variable {t a b : Text} {c : Char}

/-! ## Lines -/

theorem lines_ne_nil (h : t ≠ []) : lines t ≠ [] := by
  induction t with
  | nil => exact absurd rfl h
  | cons c rest ih =>
    simp only [lines]
    split
    · simp
    · split
      · rename_i hc
        exact ih fun hr => by simp [hr] at hc
      · split <;> simp

theorem lines_cons_of_cons {rest line : Text} {more : List Text} (hc : c ≠ '\n')
    (hr : c = '\r' → rest.head? ≠ some '\n') (h : lines rest = line :: more) :
    lines (c :: rest) = (c :: line) :: more := by
  have hcr : ¬ (c = '\r' ∧ rest.head? = some '\n') := fun hcr => hr hcr.1 hcr.2
  simp [lines, hc, hcr, h]

theorem lines_append (ha : a.getLast? = some '\n') (b : Text) : lines (a ++ b) = lines a ++ lines b := by
  induction a with
  | nil => cases ha
  | cons c rest ih =>
    by_cases hrest : rest = []
    · subst hrest
      cases ha
      rfl
    · have hlast : rest.getLast? = some '\n' := by
        rwa [getLast?_cons_of_ne_nil hrest] at ha
      have hhead : (rest ++ b).head? = rest.head? := head?_append_of_ne_nil _ hrest
      obtain ⟨line, more, hl⟩ := exists_cons_of_ne_nil (lines_ne_nil hrest)
      simp only [cons_append, lines, hhead, ih hlast, hl]
      split
      · rfl
      · split <;> rfl

theorem not_crlf_of_lf_not_mem (h : '\n' ∉ t) : ¬ ['\r', '\n'] <:+: t :=
  fun hin => h (hin.subset (by simp))

theorem lines_append_crlf (h : ¬ ['\r', '\n'] <:+: t) (rest : Text) :
    lines (t ++ '\r' :: '\n' :: rest) = List.splitOn '\n' t ++ lines rest := by
  induction t with
  | nil => simp [lines]
  | cons c t ih =>
    rw [infix_cons_iff, not_or] at h
    by_cases hc : c = '\n'
    · simp [lines, splitOn_cons_eq_if_modifyHead, hc, ih h.2]
    · obtain ⟨piece, more, hp⟩ := exists_cons_of_ne_nil (splitOn_ne_nil '\n' t)
      rw [splitOn_cons_of_ne hc hp]
      refine lines_cons_of_cons hc (fun hr hn => h.1 ?_) ((ih h.2).trans (by rw [hp]; rfl))
      cases t with
      | nil => cases hn
      | cons d t =>
        rw [hr, Option.some.inj hn]
        exact ⟨t, rfl⟩

theorem lines_intercalate_crlf {ls : List Text} (hne : ls ≠ []) (h : ∀ l ∈ ls, '\n' ∉ l) (rest : Text) :
    lines (['\r', '\n'].intercalate ls ++ '\r' :: '\n' :: rest) = ls ++ lines rest := by
  induction ls with
  | nil => exact absurd rfl hne
  | cons l ls ih =>
    have hl : '\n' ∉ l := h l (by simp)
    have hline (more : Text) : lines (l ++ '\r' :: '\n' :: more) = l :: lines more := by
      rw [lines_append_crlf (not_crlf_of_lf_not_mem hl), splitOn_eq_singleton hl]
      rfl
    by_cases hls : ls = []
    · subst hls
      simpa using hline rest
    · rw [intercalate_cons_of_ne_nil hls]
      simp only [List.append_assoc, cons_append, nil_append]
      rw [hline, ih hls fun k hk => h k (by simp [hk])]

theorem lines_eq_splitOn (h : ¬ ['\r', '\n'] <:+: t ++ ['\n']) : lines (t ++ ['\n']) = List.splitOn '\n' t := by
  induction t with
  | nil => rfl
  | cons c rest ih =>
    rw [cons_append, infix_cons_iff, not_or] at h
    by_cases hc : c = '\n'
    · simp [lines, splitOn_cons_eq_if_modifyHead, hc, ih h.2]
    · obtain ⟨piece, more, hp⟩ := exists_cons_of_ne_nil (splitOn_ne_nil '\n' rest)
      rw [splitOn_cons_of_ne hc hp]
      refine lines_cons_of_cons hc (fun hr hn => h.1 ?_) ((ih h.2).trans hp)
      obtain ⟨tail, ht⟩ := head?_eq_some_iff.mp hn
      exact ⟨tail, by rw [hr]; exact congrArg ('\r' :: ·) ht.symm⟩

theorem not_crlf_append (ha : ¬ ['\r', '\n'] <:+: a) (hb : ¬ ['\r', '\n'] <:+: b)
    (hab : a.getLast? = some '\r' → b.head? ≠ some '\n') : ¬ ['\r', '\n'] <:+: a ++ b := by
  induction a with
  | nil => exact hb
  | cons c rest ih =>
    rw [infix_cons_iff, not_or] at ha
    rw [cons_append, infix_cons_iff, not_or]
    constructor
    · intro hp
      obtain ⟨rfl, hn⟩ := cons_prefix_cons.mp hp
      cases rest with
      | nil =>
        obtain ⟨tail, rfl⟩ : ∃ tail, b = '\n' :: tail := hn.imp fun tail ht => ht.symm
        exact hab rfl rfl
      | cons d rest =>
        obtain ⟨rfl, -⟩ := cons_prefix_cons.mp hn
        exact ha.1 ⟨rest, rfl⟩
    · refine ih ha.2 fun hr => hab ?_
      rwa [getLast?_cons_of_ne_nil (by rintro rfl; cases hr)]

theorem lf_not_mem_of_mem_lines {l : Text} (h : l ∈ lines t) : '\n' ∉ l := by
  induction t generalizing l with
  | nil => cases h
  | cons c rest ih =>
    simp only [lines] at h
    split at h
    · rcases mem_cons.mp h with rfl | h
      · simp
      · exact ih h
    · rename_i hc
      split at h
      · exact ih h
      · split at h
        · simpa [mem_singleton.mp h] using Ne.symm hc
        · rename_i line more hm
          rcases mem_cons.mp h with rfl | h
          · simpa [Ne.symm hc] using ih (hm ▸ mem_cons_self)
          · exact ih (hm ▸ mem_cons_of_mem _ h)

/-! ## Trimming -/

theorem trimEnd_append (h : trimEnd b ≠ []) : trimEnd (a ++ b) = a ++ trimEnd b := by
  induction a with
  | nil => rfl
  | cons c rest ih =>
    obtain ⟨d, more, hd⟩ := exists_cons_of_ne_nil h
    rw [cons_append, cons_append, trimEnd, ih, hd]
    cases rest <;> rfl

theorem trimEnd_ne_nil (hc : c ∈ t) (hb : isBlank c = false) : trimEnd t ≠ [] := by
  obtain ⟨a, b, rfl⟩ := append_of_mem hc
  have hcb : trimEnd (c :: b) ≠ [] := by
    simp only [trimEnd]
    split
    · simp [hb]
    · simp
  rw [trimEnd_append hcb]
  simp [hcb]

theorem trimEnd_cons (hb : isBlank c = false) (t : Text) : trimEnd (c :: t) = c :: trimEnd t := by
  simp only [trimEnd]
  split
  · rename_i h
    simp [hb, h]
  · rename_i h
    rw [h]

theorem trimEnd_eq_nil (h : trimEnd t = []) : ∀ c ∈ t, isBlank c = true := by
  intro c hc
  by_contra hb
  exact trimEnd_ne_nil hc (by simpa using hb) h

theorem trimEnd_append_blank (h : ∀ c ∈ b, isBlank c = true) (a : Text) : trimEnd (a ++ b) = trimEnd a := by
  induction a with
  | nil =>
    induction b with
    | nil => rfl
    | cons c rest ih =>
      have hrest : trimEnd rest = [] := ih fun d hd => h d (by simp [hd])
      simp [trimEnd, hrest, h c (by simp)]
  | cons c rest ih => rw [cons_append, trimEnd, trimEnd, ih]

theorem isPrefix_trimEnd (t : Text) : trimEnd t <+: t := by
  induction t with
  | nil => exact prefix_refl _
  | cons c rest ih =>
    simp only [trimEnd]
    split
    · split
      · exact nil_prefix
      · exact ⟨rest, rfl⟩
    · rename_i d more hd
      rw [hd] at ih
      exact (prefix_cons_inj c).mpr ih

theorem trimEnd_eq_self (h : t.getLast? = some c) (hb : isBlank c = false) : trimEnd t = t := by
  obtain ⟨init, rfl⟩ := getLast?_eq_some_iff.mp h
  have hc : trimEnd [c] = [c] := by simp [trimEnd, hb]
  rw [trimEnd_append (by simp [hc]), hc]

theorem getLast?_trimEnd (h : (trimEnd t).getLast? = some c) : isBlank c = false := by
  induction t with
  | nil => cases h
  | cons d rest ih =>
    simp only [trimEnd] at h
    split at h
    · split at h
      · cases h
      · rename_i hd
        cases h
        simpa using hd
    · rename_i e more he
      exact ih (by rw [he]; rwa [getLast?_cons_of_ne_nil (by simp)] at h)

theorem trimEnd_trimEnd (t : Text) : trimEnd (trimEnd t) = trimEnd t := by
  by_cases h : trimEnd t = []
  · rw [h]
    rfl
  · have hl := getLast?_eq_some_getLast h
    exact trimEnd_eq_self hl (getLast?_trimEnd hl)

theorem trimStart_suffix (t : Text) : trimStart t <:+ t := dropWhile_suffix _

theorem trimStart_cons (hb : isBlank c = false) (t : Text) : trimStart (c :: t) = c :: t :=
  dropWhile_cons_of_neg (by simp [hb])

theorem head?_trimStart (h : (trimStart t).head? = some c) : isBlank c = false := by
  have := head?_dropWhile_not isBlank t
  rw [trimStart] at h
  simpa [h] using this

theorem isInfix_trim (t : Text) : trim t <:+: t :=
  (isPrefix_trimEnd _).isInfix.trans (trimStart_suffix t).isInfix

theorem head?_trim (h : (trim t).head? = some c) : isBlank c = false := by
  obtain ⟨rest, hr⟩ := head?_eq_some_iff.mp h
  obtain ⟨more, hm⟩ := isPrefix_trimEnd (trimStart t)
  rw [← trim, hr] at hm
  exact head?_trimStart (t := t) (by rw [← hm]; rfl)

theorem trim_append {margin : Text} (h : ∀ c ∈ margin, isBlank c = true) (t : Text) :
    trim (margin ++ t) = trim t := by
  rw [trim, trim, trimStart, trimStart, dropWhile_append_of_pos h]

theorem isBlank_of_trim_eq_nil (h : trim t = []) : ∀ c ∈ t, isBlank c = true := by
  have hstart : trimStart t = [] := by
    cases hs : trimStart t with
    | nil => rfl
    | cons c rest =>
      have hb := trimEnd_eq_nil h c (by simp [hs])
      rw [head?_trimStart (t := t) (by simp [hs])] at hb
      cases hb
  exact dropWhile_eq_nil_iff.mp hstart

theorem trim_eq_self_iff :
    trim t = t ↔ (∀ c ∈ t.head?, isBlank c = false) ∧ ∀ c ∈ t.getLast?, isBlank c = false := by
  constructor
  · intro h
    rw [← h]
    exact ⟨fun c hc => head?_trim hc, fun c hc => getLast?_trimEnd hc⟩
  · rintro ⟨hhead, hlast⟩
    cases t with
    | nil => rfl
    | cons c rest =>
      rw [trim, trimStart_cons (hhead c rfl)]
      have hl := getLast?_eq_some_getLast (cons_ne_nil c rest)
      exact trimEnd_eq_self hl (hlast _ hl)

theorem trim_trim (t : Text) : trim (trim t) = trim t :=
  trim_eq_self_iff.mpr ⟨fun _ => head?_trim, fun _ => getLast?_trimEnd⟩

end Runbook.Text
