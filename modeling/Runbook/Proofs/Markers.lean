import Runbook.Proofs.StepNames
import Runbook.Shell.StepName

/-!
# Two readings of a step's name

The display reads the name of a step at the marker that ends first, and the runtime library at the one that
starts first. No marker stands in another, so of two markers the one that starts first also ends first, and
both readings agree on every name.
-/

open List

namespace Runbook

namespace Kind

/-- The marker of the kind stands in the name, between two texts. -/
def Occurs (k : Kind) (func before after : Text) : Prop := func = before ++ (k.marker ++ after)

/-- No marker in the name ends before this one. -/
def EndsFirst (k : Kind) (func before : Text) : Prop :=
  ∀ k' before' after', Occurs k' func before' after' →
    before.length + k.marker.length ≤ before'.length + k'.marker.length

/-- No marker in the name starts before this one. -/
def StartsFirst (func before : Text) : Prop :=
  ∀ k before' after', Occurs k func before' after' → before.length ≤ before'.length

variable {k k' : Kind} {func before before' after after' : Text}

/-- A marker that neither starts before another one nor ends behind it is the other one. -/
theorem Occurs.eq_of_inside (h : k.Occurs func before after) (h' : k'.Occurs func before' after')
    (hstart : before.length ≤ before'.length)
    (hend : before'.length + k'.marker.length ≤ before.length + k.marker.length) :
    k' = k ∧ before' = before ∧ after' = after := by
  have hprefix : before <+: before' :=
    prefix_of_prefix_length_le ⟨_, h.symm⟩ ⟨_, h'.symm⟩ hstart
  obtain ⟨gap, rfl⟩ := hprefix
  have htail : k.marker ++ after = gap ++ (k'.marker ++ after') := by
    have hboth : before ++ (k.marker ++ after) = before ++ (gap ++ (k'.marker ++ after')) := by
      rw [← h, h', List.append_assoc]
    exact append_cancel_left hboth
  rw [length_append] at hend
  obtain ⟨rfl, rfl, rfl⟩ := marker_inside htail (by omega)
  exact ⟨rfl, append_nil before, rfl⟩

theorem Occurs.end_le_iff (h : k.Occurs func before after) (h' : k'.Occurs func before' after') :
    before.length + k.marker.length ≤ before'.length + k'.marker.length ↔ before.length ≤ before'.length := by
  constructor
  · intro hend
    apply Nat.le_of_not_lt
    intro hlt
    obtain ⟨-, rfl, -⟩ := h'.eq_of_inside h (Nat.le_of_lt hlt) hend
    exact Nat.lt_irrefl _ hlt
  · intro hstart
    apply Nat.le_of_not_lt
    intro hlt
    obtain ⟨rfl, rfl, -⟩ := h.eq_of_inside h' hstart (Nat.le_of_lt hlt)
    exact Nat.lt_irrefl _ hlt

theorem Occurs.endsFirst_iff (h : k.Occurs func before after) :
    k.EndsFirst func before ↔ StartsFirst func before := by
  constructor
  · intro hfirst k' before' after' h'
    exact (h.end_le_iff h').mp (hfirst k' before' after' h')
  · intro hfirst k' before' after' h'
    exact (h.end_le_iff h').mpr (hfirst k' before' after' h')

theorem Occurs.unique (h : k.Occurs func before after) (hfirst : k.EndsFirst func before)
    (h' : k'.Occurs func before' after') (hfirst' : k'.EndsFirst func before') :
    k' = k ∧ before' = before ∧ after' = after :=
  h.eq_of_inside h' ((h.end_le_iff h').mp (hfirst _ _ _ h')) (hfirst' _ _ _ h)

theorem Occurs.cut_eq (h : k.Occurs func before after) (hfirst : StartsFirst func before) :
    Text.cut k.marker func = some (before, after) := by
  obtain ⟨⟨a, b⟩, hcut⟩ : ∃ x, Text.cut k.marker func = some x := by
    apply Option.isSome_iff_exists.mp
    exact Text.cut_isSome_iff.mpr ⟨before, after, by rw [List.append_assoc, ← h]⟩
  have hcut' : k.Occurs func a b := Text.eq_of_cut hcut
  have hstart : a.length = before.length :=
    Nat.le_antisymm (Text.length_le_of_cut hcut h) (hfirst k a b hcut')
  obtain ⟨-, rfl, rfl⟩ := h.eq_of_inside hcut' (Nat.le_of_eq hstart.symm) (by rw [hstart])
  exact hcut

end Kind

/-! ## The marker that ends first -/

theorem classify_of_endsFirst {k : Kind} {func before after : Text} (h : k.Occurs func before after)
    (hfirst : k.EndsFirst func before) : classify func = (k.row, after) := by
  obtain ⟨k₀, before₀, after₀, hc, h₀, hfirst₀⟩ := classify_spec h
  obtain ⟨rfl, rfl, rfl⟩ := h.unique hfirst h₀ hfirst₀
  exact hc

theorem classify_of_not_occurs {func : Text} (h : ∀ (k : Kind) before after, ¬ k.Occurs func before after) :
    classify func = if func = promptFunction then (.prompt, RowKind.prompt.text) else (.step, func) := by
  have hnone : markersIn func = [] := by
    apply eq_nil_iff_forall_not_mem.mpr
    intro x hx
    obtain ⟨k, a, b, hcut, -⟩ := mem_markersIn.mp hx
    exact h k a b (Text.eq_of_cut hcut)
  rw [markersIn] at hnone
  rw [classify, hnone]
  rfl

/-! ## The marker that starts first -/

namespace Shell

variable {func : Text} {markers : List Text} {best : Option (Nat × Text)}

theorem leftmostOf_eq_none (h : leftmostOf func markers best = none) :
    best = none ∧ ∀ marker ∈ markers, Text.cut marker func = none := by
  induction markers generalizing best with
  | nil => exact ⟨h, by simp⟩
  | cons marker rest ih =>
    simp only [leftmostOf] at h
    split at h
    · rename_i hcut
      obtain ⟨hbest, hrest⟩ := ih h
      exact ⟨hbest, forall_mem_cons.mpr ⟨hcut, hrest⟩⟩
    · obtain ⟨hbest, -⟩ := ih h
      split at hbest
      · cases hbest
      · rename_i hall
        subst hbest
        exact absurd rfl hall

/-- What is found is the best so far or a marker of the name, and nothing starts before it. -/
theorem leftmostOf_eq_some {found : Nat × Text} (h : leftmostOf func markers best = some found) :
    (best = some found ∨ ∃ marker ∈ markers, ∃ head tail, Text.cut marker func = some (head, tail) ∧
      found = (head.length, marker)) ∧
    (∀ x, best = some x → found.1 ≤ x.1) ∧
    ∀ marker ∈ markers, ∀ head tail, Text.cut marker func = some (head, tail) → found.1 ≤ head.length := by
  induction markers generalizing best with
  | nil =>
    refine ⟨Or.inl h, ?_, by simp⟩
    intro x hx
    cases h.symm.trans hx
    exact Nat.le_refl _
  | cons marker rest ih =>
    simp only [leftmostOf] at h
    split at h
    · rename_i hcut
      obtain ⟨hfound, hbest, hrest⟩ := ih h
      refine ⟨hfound.imp_right ?_, hbest, forall_mem_cons.mpr ⟨?_, hrest⟩⟩
      · rintro ⟨m, hm, hx⟩
        exact ⟨m, mem_cons_of_mem _ hm, hx⟩
      · intro head tail hsome
        rw [hcut] at hsome
        cases hsome
    · rename_i head tail hcut
      obtain ⟨hfound, hbest, hrest⟩ := ih h
      -- Either this marker is the new best, or the old best starts no later.
      have hhead : found.1 ≤ head.length ∧ ∀ x, best = some x → found.1 ≤ x.1 := by
        split at hbest
        · rename_i hall
          have hle := hbest _ rfl
          refine ⟨hle, ?_⟩
          rintro x rfl
          exact Nat.le_trans hle (Nat.le_of_lt (by simpa using hall))
        · rename_i hall
          refine ⟨?_, hbest⟩
          cases best with
          | none => exact absurd rfl hall
          | some x => exact Nat.le_trans (hbest x rfl) (by simpa using hall)
      refine ⟨?_, hhead.2, forall_mem_cons.mpr ⟨?_, hrest⟩⟩
      · rcases hfound with hfound | ⟨m, hm, hx⟩
        · split at hfound
          · exact Or.inr ⟨marker, mem_cons_self, head, tail, hcut, (Option.some.inj hfound).symm⟩
          · exact Or.inl hfound
        · exact Or.inr ⟨m, mem_cons_of_mem _ hm, hx⟩
      · intro head' tail' hsome
        cases hcut.symm.trans hsome
        exact hhead.1

theorem mem_markers {marker : Text} : marker ∈ kindMarkers.map (·.1) ↔ ∃ k : Runbook.Kind, marker = k.marker := by
  simp only [mem_map, Prod.exists, exists_and_right, exists_eq_right, Kind.mem_kindMarkers]
  constructor
  · rintro ⟨_, k, hk, -⟩
    exact ⟨k, hk⟩
  · rintro ⟨k, hk⟩
    exact ⟨k.row, k, hk, rfl⟩

theorem stepMarker_of_startsFirst {k : Runbook.Kind} {before after : Text} (h : k.Occurs func before after)
    (hfirst : Kind.StartsFirst func before) : stepMarker func = some k.marker := by
  have hcut := h.cut_eq hfirst
  cases hfound : leftmostOf func (kindMarkers.map (·.1)) none with
  | none =>
    have hnone := (leftmostOf_eq_none hfound).2 k.marker (mem_markers.mpr ⟨k, rfl⟩)
    rw [hcut] at hnone
    cases hnone
  | some found =>
    obtain ⟨hfrom, -, hle⟩ := leftmostOf_eq_some hfound
    obtain ⟨marker, hm, head, tail, hcut', rfl⟩ := hfrom.resolve_left (by simp)
    obtain ⟨k', rfl⟩ := mem_markers.mp hm
    have h' : k'.Occurs func head tail := Text.eq_of_cut hcut'
    have hstart : head.length ≤ before.length := hle k.marker (mem_markers.mpr ⟨k, rfl⟩) before after hcut
    have hfirst' : Kind.StartsFirst func head :=
      fun k₁ a b h₁ => Nat.le_trans hstart (hfirst k₁ a b h₁)
    obtain ⟨rfl, -, -⟩ := h.unique (h.endsFirst_iff.mpr hfirst) h' (h'.endsFirst_iff.mpr hfirst')
    rw [stepMarker, hfound]
    rfl

theorem stepMarker_eq_none (h : ∀ (k : Runbook.Kind) before after, ¬ k.Occurs func before after) :
    stepMarker func = none := by
  cases hfound : leftmostOf func (kindMarkers.map (·.1)) none with
  | none =>
    rw [stepMarker, hfound]
    rfl
  | some found =>
    obtain ⟨marker, hm, head, tail, hcut, -⟩ := (leftmostOf_eq_some hfound).1.resolve_left (by simp)
    obtain ⟨k, rfl⟩ := mem_markers.mp hm
    exact absurd (Text.eq_of_cut hcut) (h k head tail)

end Shell

/-- Both readings give the same kind and the same short name. -/
theorem step_eq (func : Text) :
    (classify func).1.text = Shell.stepKind func ∧ (classify func).2 = Shell.stepName func := by
  by_cases hmarked : ∃ (k : Kind) (before after : Text), k.Occurs func before after
  · obtain ⟨k₁, before₁, after₁, h₁⟩ := hmarked
    obtain ⟨k, before, after, hc, h, hfirst⟩ := classify_spec h₁
    have hstart : Kind.StartsFirst func before := Kind.Occurs.endsFirst_iff h |>.mp hfirst
    have hmarker := Shell.stepMarker_of_startsFirst h hstart
    have hcut := Kind.Occurs.cut_eq h hstart
    rw [hc, Shell.stepKind, Shell.stepName, hmarker]
    constructor
    · cases k <;> rfl
    · simp only [hcut, Option.map_some, Option.getD_some]
  · have hnone : ∀ (k : Kind) before after, ¬ k.Occurs func before after :=
      fun k before after h => hmarked ⟨k, before, after, h⟩
    have hmarker := Shell.stepMarker_eq_none hnone
    rw [classify_of_not_occurs hnone, Shell.stepKind, Shell.stepName, hmarker]
    split
    · exact ⟨rfl, rfl⟩
    · exact ⟨rfl, rfl⟩

/-- A name that was made of a symbol, a kind and a short name is read as it was made exactly if no marker
stands in the symbol followed by an underscore. In every name the marker that ends first is the one that
starts first, and both readings of the name go by it. -/
theorem classify_iff_unmarked (symbol name func : Text) (k : Kind) :
    (classify (symbol ++ (k.marker ++ name)) = (k.row, name) ↔ ∀ k' : Kind, ¬ k'.marker <:+: symbol ++ ['_']) ∧
    (∀ before after, k.Occurs func before after →
      (k.EndsFirst func before ↔ Kind.StartsFirst func before) ∧
      (k.EndsFirst func before → classify func = (k.row, after) ∧ Shell.stepMarker func = some k.marker)) ∧
    (classify func).1.text = Shell.stepKind func ∧ (classify func).2 = Shell.stepName func := by
  refine ⟨?_, ?_, step_eq func⟩
  · rw [← wrapperName_eq, ← not_exists]
    constructor
    · intro hc hmarked
      have hlong := (classify_wrapperName_of_marked hmarked k name).length_le
      rw [hc] at hlong
      exact Nat.not_succ_le_self _ hlong
    · intro hmarked
      exact classify_wrapperName hmarked k name
  · intro before after h
    refine ⟨h.endsFirst_iff, ?_⟩
    intro hfirst
    exact ⟨classify_of_endsFirst h hfirst, Shell.stepMarker_of_startsFirst h (h.endsFirst_iff.mp hfirst)⟩

/-- The marker of a rule shares an underscore with the one of a workflow. -/
example : classify "m__rule__workflow_x" = (.rule, "_workflow_x".toList) ∧
    Shell.stepKind "m__rule__workflow_x" = "rule" ∧ Shell.stepName "m__rule__workflow_x" = "_workflow_x" := by
  decide

end Runbook
