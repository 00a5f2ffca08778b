import Mathlib.Data.List.Basic
import Runbook.Text.Utf8

/-!
# Cutting texts

What the cuts of a text say about it: where one text stands in another, which parts lie between separators,
and how many bytes lie before a cut.
-/

open List

namespace Runbook

namespace Text

variable {needle t a b s : Text} {c : Char} {p : Char → Bool}

/-! ## Occurrences -/

theorem cut_isSome_iff : (cut needle t).isSome ↔ needle <:+: t := by
  induction t with
  | nil =>
    simp only [cut, infix_nil]
    split <;> simp_all
  | cons c rest ih =>
    simp only [cut]
    split
    · rename_i after h
      have hp : needle <+: c :: rest := ⟨after, isPrefixOf?_eq_some_iff_append_eq.mp h⟩
      simp [hp.isInfix]
    · rename_i h
      have hp : ¬ needle <+: c :: rest := by
        rintro ⟨after, he⟩
        rw [isPrefixOf?_eq_some_iff_append_eq.mpr he] at h
        cases h
      rw [Option.isSome_map, ih, infix_cons_iff]
      simp [hp]

theorem contains_iff : contains needle t = true ↔ needle <:+: t :=
  cut_isSome_iff

theorem cut_append (h : c ∉ a) (b : Text) : cut (c :: needle) (a ++ (c :: needle ++ b)) = some (a, b) := by
  induction a with
  | nil =>
    have hp : (c :: needle).isPrefixOf? (c :: (needle ++ b)) = some b :=
      isPrefixOf?_eq_some_iff_append_eq.mpr rfl
    simp [cut, hp]
  | cons d rest ih =>
    obtain ⟨hd, hr⟩ := not_or.mp (mem_cons.not.mp h)
    have hp : (c :: needle).isPrefixOf? (d :: (rest ++ (c :: needle ++ b))) = none := by
      simp [List.isPrefixOf?, hd]
    rw [cons_append, cut, hp]
    simp only [ih hr, Option.map_some]

theorem eq_of_cut (h : cut needle t = some (a, b)) : t = a ++ (needle ++ b) := by
  induction t generalizing a with
  | nil =>
    simp only [cut] at h
    split at h
    · rename_i hn
      cases h
      simp [hn]
    · cases h
  | cons c rest ih =>
    simp only [cut] at h
    split at h
    · rename_i after hp
      cases h
      exact (isPrefixOf?_eq_some_iff_append_eq.mp hp).symm
    · obtain ⟨⟨a', b'⟩, hcut, he⟩ := Option.map_eq_some_iff.mp h
      cases he
      rw [ih hcut]
      rfl

theorem eq_of_cutAt (h : cutAt p t = some (a, b)) : ∃ c, p c ∧ t = a ++ c :: b := by
  induction t generalizing a with
  | nil => simp [cutAt] at h
  | cons c rest ih =>
    simp only [cutAt] at h
    split at h
    · rename_i hc
      cases h
      exact ⟨c, hc, rfl⟩
    · simp only [Option.map_eq_some_iff, Prod.exists, Prod.mk.injEq] at h
      obtain ⟨a', b', hb, rfl, rfl⟩ := h
      obtain ⟨d, hd, rfl⟩ := ih hb
      exact ⟨d, hd, rfl⟩

theorem cutAt_append (ha : ∀ d ∈ a, p d = false) (hc : p c = true) (b : Text) :
    cutAt p (a ++ c :: b) = some (a, b) := by
  induction a with
  | nil => simp [cutAt, hc]
  | cons d rest ih => simp [cutAt, ha d (by simp), ih fun e he => ha e (by simp [he])]

theorem cutAt_eq_none (h : ∀ d ∈ t, p d = false) : cutAt p t = none := by
  induction t with
  | nil => rfl
  | cons d rest ih => simp [cutAt, h d (by simp), ih fun e he => h e (by simp [he])]

theorem cutAtLast_eq_none (h : ∀ d ∈ t, p d = false) : cutAtLast p t = none := by
  induction t with
  | nil => rfl
  | cons d rest ih => simp [cutAtLast, h d (by simp), ih fun e he => h e (by simp [he])]

theorem cutAtLast_append (hc : p c = true) (hb : ∀ d ∈ b, p d = false) (a : Text) :
    cutAtLast p (a ++ c :: b) = some (a, b) := by
  induction a with
  | nil => simp [cutAtLast, cutAtLast_eq_none hb, hc]
  | cons d rest ih => simp [cutAtLast, ih]

theorem eq_of_cutAtLast (h : cutAtLast p t = some (a, b)) : ∃ c, p c ∧ t = a ++ c :: b := by
  induction t generalizing a with
  | nil => cases h
  | cons d rest ih =>
    simp only [cutAtLast] at h
    split at h
    · rename_i hr
      cases h
      obtain ⟨c, hc, rfl⟩ := ih hr
      exact ⟨c, hc, rfl⟩
    · split at h
      · rename_i hd
        cases h
        exact ⟨d, hd, rfl⟩
      · cases h

/-! ## Parts between separators -/

section

variable {sep : Char}

theorem splitOn_cons_of_ne {c : Char} {rest part : Text} {more : List Text} (hc : c ≠ sep)
    (h : rest.splitOn sep = part :: more) : (c :: rest).splitOn sep = (c :: part) :: more := by
  simp [splitOn_cons_eq_if_modifyHead, hc, h]

theorem splitOn_append {a b last first : Text} {init more : List Text} (ha : a.splitOn sep = init ++ [last])
    (hb : b.splitOn sep = first :: more) : (a ++ b).splitOn sep = init ++ (last ++ first) :: more := by
  induction a generalizing init last with
  | nil =>
    obtain ⟨rfl, rfl⟩ : init = [] ∧ last = [] := by
      cases init with
      | nil => simpa [eq_comm] using ha
      | cons part init => simp at ha
    exact hb
  | cons c rest ih =>
    obtain ⟨part, parts, hr⟩ := exists_cons_of_ne_nil (splitOn_ne_nil sep rest)
    by_cases hc : c = sep
    · subst hc
      have hcons : ∀ t : Text, (c :: t).splitOn c = [] :: t.splitOn c := by
        simp [splitOn_cons_eq_if_modifyHead]
      rw [hcons] at ha
      cases init with
      | nil => simp [hr] at ha
      | cons part init =>
        obtain ⟨rfl, hlast⟩ := List.cons.inj ha
        rw [cons_append, hcons, ih hlast, cons_append]
    · rw [splitOn_cons_of_ne hc hr] at ha
      cases init with
      | nil =>
        obtain ⟨rfl, rfl⟩ := List.cons.inj ha
        have hlast : rest.splitOn sep = [] ++ [part] := hr
        exact splitOn_cons_of_ne hc (ih hlast)
      | cons x init =>
        obtain ⟨rfl, rfl⟩ := List.cons.inj ha
        have hlast : rest.splitOn sep = (part :: init) ++ [last] := hr
        exact splitOn_cons_of_ne hc (ih hlast)

theorem not_mem_of_mem_splitOn {t part : Text} (h : part ∈ t.splitOn sep) : sep ∉ part := by
  induction t generalizing part with
  | nil => simp_all
  | cons d rest ih =>
    obtain ⟨first, more, hr⟩ := exists_cons_of_ne_nil (splitOn_ne_nil sep rest)
    by_cases hd : d = sep
    · rw [hd, splitOn_cons_eq_if_modifyHead, if_pos (by simp), mem_cons] at h
      rcases h with rfl | h
      · exact not_mem_nil
      · exact ih h
    · rw [splitOn_cons_of_ne hd hr, mem_cons] at h
      rcases h with rfl | h
      · exact not_mem_cons_of_ne_of_not_mem (Ne.symm hd) (ih (hr ▸ mem_cons_self))
      · exact ih (hr ▸ mem_cons_of_mem _ h)

end

theorem intercalate_append {sep : Text} {a b : List Text} (ha : a ≠ []) (hb : b ≠ []) :
    sep.intercalate (a ++ b) = sep.intercalate a ++ sep ++ sep.intercalate b := by
  induction a with
  | nil => exact absurd rfl ha
  | cons t rest ih =>
    by_cases hr : rest = []
    · subst hr
      rw [singleton_append, intercalate_cons_of_ne_nil hb, intercalate_singleton]
    · rw [cons_append, intercalate_cons_of_ne_nil (by simp [hb]),
        intercalate_cons_of_ne_nil hr, ih hr]
      simp only [List.append_assoc]

/-! ## Order -/

theorem le_iff : le s t = true ↔ List.le s t :=
  @decide_eq_true_iff (List.le s t) (List.decidableLE s t)

theorem le_refl (t : Text) : le t t = true := le_iff.mpr (List.le_refl t)

theorem le_cons_iff {a b : Char} : le (a :: s) (b :: t) = true ↔ a.toNat < b.toNat ∨ a = b ∧ le s t = true := by
  rw [le_iff, le_iff]
  exact cons_le_cons_iff

theorem le_append_left (t x y : Text) : le (t ++ x) (t ++ y) = le x y := by
  induction t with
  | nil => rfl
  | cons c t ih =>
    rw [cons_append, cons_append, Bool.eq_iff_iff, le_cons_iff, ih]
    simp

theorem le_append_of_ne (hlen : s.length = t.length) (hne : s ≠ t) (x y : Text) :
    le (s ++ x) (t ++ y) = le s t := by
  induction s generalizing t with
  | nil => exact absurd (length_eq_zero_iff.mp hlen.symm).symm hne
  | cons a s ih =>
    cases t with
    | nil => cases hlen
    | cons b t =>
      rw [cons_append, cons_append, Bool.eq_iff_iff, le_cons_iff, le_cons_iff]
      by_cases hab : a = b
      · have hst : s ≠ t := fun he => hne (by rw [hab, he])
        rw [ih (Nat.succ.inj hlen) hst]
      · simp [hab]

end Text

/-! ## Bytes -/

theorem Utf8.encode_append (a b : Text) : encode (a ++ b) = encode a ++ encode b :=
  flatMap_append

theorem Text.byteLength_eq (t : Text) : t.byteLength = (Utf8.encode t).length := by
  have hfold (n : Nat) : t.foldl (fun n c => n + c.utf8Size) n = n + (Utf8.encode t).length := by
    induction t generalizing n with
    | nil => rfl
    | cons c rest ih =>
      have hcons : Utf8.encode (c :: rest) = String.utf8EncodeChar c ++ Utf8.encode rest := flatMap_cons
      rw [foldl_cons, ih, hcons, length_append, String.length_utf8EncodeChar, Nat.add_assoc]
  rw [byteLength, hfold, Nat.zero_add]

theorem Text.byteLength_append (a b : Text) : byteLength (a ++ b) = a.byteLength + b.byteLength := by
  simp only [byteLength_eq, Utf8.encode_append, length_append]

end Runbook
