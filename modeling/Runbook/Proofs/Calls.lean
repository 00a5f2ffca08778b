import Runbook.Proofs.Reference
import Runbook.RunTree

/-!
# Calls of functions

A shell step calls a function if the name stands in its command as a word of its own. The search takes the
occurrences from the left, each behind the one before, so it passes over those that overlap an earlier one.
It misses no call by that: the character in front of such an occurrence belongs to a name.
-/

open List

namespace Runbook

/-- The name stands in the text between two parts as a call: no name character touches it from the left, and
a blank, a closing parenthesis or the end follows. `last` is the character in front of the text. -/
structure CallBetween (name : Text) (last : Option Char) (t before after : Text) : Prop where
  text_eq : t = before ++ (name ++ after)
  opens : (before.getLast?.or last).any isNameChar = false
  closes : after.head?.all (fun c => isBlank c || c == ')') = true

def Calls (name : Text) (last : Option Char) (t : Text) : Prop :=
  ∃ before after, CallBetween name last t before after

variable {name t : Text} {last : Option Char} {skip : Nat} {c : Char}

theorem callBetween_cons_iff {before after : Text} :
    CallBetween name last (c :: t) (c :: before) after ↔ CallBetween name (some c) t before after := by
  have hlast : (c :: before).getLast?.or last = before.getLast?.or (some c) := by
    rw [getLast?_cons]
    cases before.getLast? <;> rfl
  constructor
  · rintro ⟨ht, hopens, hcloses⟩
    exact ⟨(List.cons.inj ht).2, hlast ▸ hopens, hcloses⟩
  · rintro ⟨ht, hopens, hcloses⟩
    exact ⟨congrArg (c :: ·) ht, hlast ▸ hopens, hcloses⟩

/-- A call in a text stands at its start or is one behind its first character. -/
theorem calls_cons_iff :
    Calls name last (c :: t) ↔ (∃ after, CallBetween name last (c :: t) [] after) ∨ Calls name (some c) t := by
  constructor
  · rintro ⟨before, after, h⟩
    cases before with
    | nil => exact .inl ⟨after, h⟩
    | cons d before =>
      obtain ⟨rfl, -⟩ := List.cons.inj h.text_eq
      exact .inr ⟨before, after, callBetween_cons_iff.mp h⟩
  · rintro (⟨after, h⟩ | ⟨before, after, h⟩)
    · exact ⟨[], after, h⟩
    · exact ⟨c :: before, after, callBetween_cons_iff.mpr h⟩

theorem calls_nil_iff : Calls name last [] ↔ name = [] ∧ last.any isNameChar = false := by
  constructor
  · rintro ⟨before, after, ht, hopens, -⟩
    obtain ⟨rfl, rfl, rfl⟩ : before = [] ∧ name = [] ∧ after = [] := by simpa using ht
    exact ⟨rfl, hopens⟩
  · rintro ⟨rfl, hopens⟩
    exact ⟨[], [], rfl, hopens, rfl⟩

theorem callBetween_nil_iff {after : Text} :
    CallBetween name last t [] after ↔
      name.isPrefixOf? t = some after ∧ last.any isNameChar = false ∧
        after.head?.all (fun c => isBlank c || c == ')') = true := by
  rw [isPrefixOf?_eq_some_iff_append_eq]
  constructor
  · rintro ⟨ht, hopens, hcloses⟩
    exact ⟨ht.symm, hopens, hcloses⟩
  · rintro ⟨ht, hopens, hcloses⟩
    exact ⟨ht.symm, hopens, hcloses⟩

/-- The first `skip` characters belong to an occurrence that was seen, as does the one in front of them. So
each of them has a name character before it, and no call starts there. -/
theorem callsFrom_iff (hname : isIdentifier name = true) (hlast : skip ≠ 0 → last.any isNameChar = true)
    (hinside : ∀ c ∈ t.take (skip - 1), isNameChar c = true) :
    callsFrom name last skip t = true ↔ Calls name last t := by
  have hne := ne_nil_of_isIdentifier hname
  fun_induction callsFrom name last skip t with
  | case1 last skip => simp [calls_nil_iff, hne]
  | case2 last c rest after hp ih =>
    have hstart : (∃ b, CallBetween name last (c :: rest) [] b) ↔
        last.any isNameChar = false ∧ after.head?.all (fun c => isBlank c || c == ')') = true := by
      simp [callBetween_nil_iff, hp]
    rw [calls_cons_iff, hstart, Bool.or_eq_true, Bool.and_eq_true, Bool.not_eq_true']
    have ht : name ++ after = c :: rest := isPrefixOf?_eq_some_iff_append_eq.mp hp
    obtain ⟨tail, rfl, rfl⟩ := (append_eq_cons_iff.mp ht).resolve_left fun h => hne h.1
    -- what is left of this occurrence is passed over, and all of it are name characters
    have hchars := isNameChar_of_isIdentifier hname
    refine or_congr Iff.rfl (ih (fun _ => hchars c mem_cons_self) fun d hd => ?_)
    have hd : d ∈ tail.take (tail.length - 1) := by
      rwa [← take_append_of_le_length (Nat.sub_le _ _)]
    exact hchars d (mem_cons_of_mem c (mem_of_mem_take hd))
  | case3 last c rest hp ih =>
    have hstart : ¬ ∃ after, CallBetween name last (c :: rest) [] after := by
      simp [callBetween_nil_iff, hp]
    rw [calls_cons_iff, or_iff_right hstart]
    exact ih (fun h => absurd rfl h) (by simp)
  | case4 last skip c rest ih =>
    have hstart : ¬ ∃ after, CallBetween name last (c :: rest) [] after := by
      simp [callBetween_nil_iff, hlast]
    rw [calls_cons_iff, or_iff_right hstart]
    cases skip with
    | zero => exact ih (fun h => absurd rfl h) (by simp)
    | succ skip =>
      obtain ⟨hc, hrest⟩ : isNameChar c = true ∧ ∀ d ∈ rest.take skip, isNameChar d = true := by
        simpa using hinside
      exact ih (fun _ => hc) hrest

/-- A command calls a function exactly if the name occurs in it, at any place, with no letter, digit or
underscore before it and with a blank, a closing parenthesis or the end behind it. -/
theorem callsFunction_iff (h : isIdentifier name = true) (command : Text) :
    callsFunction name command = true ↔
      ∃ before after, command = before ++ (name ++ after) ∧
        (∀ c ∈ before.getLast?, ¬ (c.isAlphanum = true ∨ c = '_')) ∧
        (∀ c ∈ after.head?, isBlank c = true ∨ c = ')') := by
  rw [callsFunction, callsFrom_iff h (fun hskip => absurd rfl hskip) (by simp)]
  constructor
  · rintro ⟨before, after, ht, hopens, hcloses⟩
    refine ⟨before, after, ht, fun c hc => ?_, fun c hc => ?_⟩
    · simpa [Option.mem_def.mp hc, isNameChar] using hopens
    · simpa [Option.mem_def.mp hc] using hcloses
  · rintro ⟨before, after, ht, hopens, hcloses⟩
    refine ⟨before, after, ht, ?_, ?_⟩
    · cases hb : before.getLast? with
      | none => rfl
      | some c => simpa [isNameChar] using hopens c hb
    · cases ha : after.head? with
      | none => rfl
      | some c => simpa using hcloses c ha

/-- The second occurrence overlaps the first one, and only the last one is a call. -/
theorem callsFunction_behind_overlap :
    isIdentifier "aa" = true ∧ callsFunction "aa" "aaa $(aa)" = true := by
  refine ⟨by decide, (callsFunction_iff (by decide) _).mpr ⟨"aaa $(", ")", by decide, ?_, ?_⟩⟩
  · intro c hc
    obtain rfl : '(' = c := Option.some.inj hc
    decide
  · intro c hc
    obtain rfl : ')' = c := Option.some.inj hc
    decide

-- A name with other characters in it may be missed: here the second occurrence stands alone.
example : callsFunction "a;a" "a;a;a" = false := by decide

end Runbook
