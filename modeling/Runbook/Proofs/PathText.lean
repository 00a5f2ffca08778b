import Mathlib.Data.List.Induction
import Runbook.Proofs.Path

/-!
# Texts of paths

A path that is put together from parts has the texts of the parts, with slashes between them, as its own.
Its parent and its extensions are therefore put together from parts again.
-/

open List

namespace Runbook

namespace Component

theorem Proper.text_ne_nil {c : Component} (h : c.Proper) : c.text ≠ [] := by
  cases c with
  | up => decide
  | name n => exact h.1
  | root => exact h.elim
  | here => exact h.elim

theorem Proper.getLast?_text {c : Component} (h : c.Proper) : c.text.getLast? ≠ some '/' :=
  fun hl => h.slash (mem_of_getLast? hl)

theorem Proper.head?_text {c : Component} (h : c.Proper) : c.text.head? ≠ some '/' :=
  fun hl => h.slash (mem_of_head? hl)

theorem proper_names {names : List Text} (h : ∀ n ∈ names, IsName n) :
    ∀ c ∈ names.map Component.name, c.Proper := by
  intro c hc
  obtain ⟨n, hn, rfl⟩ := mem_map.mp hc
  exact h n hn

end Component

namespace Path

/-- What stands before the parts of a path that is seen from the root, or from nowhere. -/
def lead (rooted : Bool) : List Component := if rooted then [.root] else []

def leadText (rooted : Bool) : Text := if rooted then ['/'] else []

/-- The path with the given parts, seen from the root or from nowhere. -/
def ofParts (rooted : Bool) (cs : List Component) : Path := ofComponents (lead rooted ++ cs)

/-- The texts of the parts with slashes between them. -/
def partsText (cs : List Component) : Text := ['/'].intercalate (cs.map Component.text)

theorem partsText_singleton (c : Component) : partsText [c] = c.text := intercalate_singleton

theorem partsText_append {cs ds : List Component} (hc : cs ≠ []) (hd : ds ≠ []) :
    partsText (cs ++ ds) = partsText cs ++ '/' :: partsText ds := by
  rw [partsText, map_append, Text.intercalate_append (by simpa using hc) (by simpa using hd),
    List.append_assoc]
  rfl

section

variable {rooted : Bool} {cs ds : List Component} {c : Component}

theorem exists_partsText_append (cs : List Component) (c : Component) :
    ∃ before, partsText (cs ++ [c]) = before ++ c.text := by
  by_cases h : cs = []
  · subst h
    exact ⟨[], partsText_singleton c⟩
  · refine ⟨partsText cs ++ ['/'], ?_⟩
    rw [partsText_append h (by simp), List.append_assoc, partsText_singleton]
    rfl

theorem getLast?_partsText (h : ∀ c ∈ cs, c.Proper) : (partsText cs).getLast? ≠ some '/' := by
  rcases eq_nil_or_concat cs with rfl | ⟨init, d, rfl⟩
  · decide
  · have hd := h d (by simp)
    obtain ⟨before, hb⟩ := exists_partsText_append init d
    rw [concat_eq_append, hb, getLast?_append_of_ne_nil _ hd.text_ne_nil]
    exact hd.getLast?_text

theorem partsText_ne_nil (h : ∀ c ∈ cs, c.Proper) (hne : cs ≠ []) : partsText cs ≠ [] := by
  obtain ⟨init, d, rfl⟩ := (eq_nil_or_concat cs).resolve_left hne
  obtain ⟨before, hb⟩ := exists_partsText_append init d
  rw [concat_eq_append, hb]
  simp [(h d (by simp)).text_ne_nil]

theorem head?_partsText (h : ∀ c ∈ cs, c.Proper) (hne : cs ≠ []) : (partsText cs).head? ≠ some '/' := by
  obtain ⟨c, rest, rfl⟩ := exists_cons_of_ne_nil hne
  have hc := h c (by simp)
  by_cases hr : rest = []
  · subst hr
    rw [partsText_singleton]
    exact hc.head?_text
  · rw [← singleton_append, partsText_append (by simp) hr, partsText_singleton]
    exact (head?_append_of_ne_nil _ hc.text_ne_nil).trans_ne hc.head?_text

theorem push_partsText (h : ∀ c ∈ cs, c.Proper) (hd : ∀ c ∈ ds, c.Proper) (hne : ds ≠ []) :
    push ⟨leadText rooted ++ partsText cs⟩ (partsText ds) =
      ⟨leadText rooted ++ partsText (cs ++ ds)⟩ := by
  rw [push, if_neg (head?_partsText hd hne)]
  by_cases hcs : cs = []
  · subst hcs
    rw [if_pos (by cases rooted <;> simp [leadText, partsText])]
    simp [partsText]
  · rw [if_neg]
    · simp [partsText_append hcs hne]
    · rintro (he | hl)
      · simp [partsText_ne_nil h hcs] at he
      · rw [getLast?_append_of_ne_nil _ (partsText_ne_nil h hcs)] at hl
        exact getLast?_partsText h hl

theorem text_ofParts (h : ∀ c ∈ cs, c.Proper) :
    (ofParts rooted cs).text = leadText rooted ++ partsText cs := by
  induction cs using List.reverseRecOn with
  | nil => cases rooted <;> rfl
  | append_singleton cs c ih =>
    have hcs : ∀ d ∈ cs, d.Proper := fun d hd => h d (by simp [hd])
    have hpush : ofParts rooted (cs ++ [c]) = push (ofParts rooted cs) (partsText [c]) := by
      simp only [ofParts, ofComponents, extend, ← List.append_assoc, foldl_append,
        foldl_cons, foldl_nil, partsText_singleton]
    have hpath : ofParts rooted cs = ⟨leadText rooted ++ partsText cs⟩ := congrArg Path.mk (ih hcs)
    rw [hpush, hpath, push_partsText hcs (fun d hd => h d (by simp [mem_singleton.mp hd])) (by simp)]

theorem components_ofParts (h : ∀ c ∈ cs, c.Proper) :
    (ofParts rooted cs).components = lead rooted ++ cs := by
  cases rooted with
  | false => exact components_ofComponents h
  | true => exact components_ofComponents_root h

theorem anchored_ofParts (above : Bool) (names : List Text) :
    anchored above names = ofParts true ((if above then [.up] else []) ++ names.map .name) :=
  rfl

theorem anchored_proper {above : Bool} {names : List Text} (h : ∀ n ∈ names, IsName n) :
    ∀ c ∈ (if above then [Component.up] else []) ++ names.map .name, c.Proper := by
  obtain ⟨cs, hcs, he⟩ := anchor_proper above h
  cases he
  exact hcs

theorem push_ofParts (rooted : Bool) (cs : List Component) (n : Text) :
    (ofParts rooted cs).push n = ofParts rooted (cs ++ [.name n]) := by
  simp only [ofParts, ofComponents, extend, ← List.append_assoc, foldl_append, foldl_cons,
    foldl_nil]
  rfl

theorem ofParts_name (n : Text) : ofParts false [.name n] = ⟨n⟩ := by
  simp [ofParts, lead, ofComponents, extend, push, Component.text]

theorem components_push_partsText (h : ∀ c ∈ cs, c.Proper) (hd : ∀ c ∈ ds, c.Proper) :
    ((ofParts rooted cs).push (partsText ds)).components = lead rooted ++ (cs ++ ds) := by
  by_cases hne : ds = []
  · subst hne
    rw [append_nil, ← components_ofParts h]
    exact components_push_nil _
  · have hall : ∀ c ∈ cs ++ ds, c.Proper := forall_mem_append.mpr ⟨h, hd⟩
    have hleft : ofParts rooted cs = ⟨leadText rooted ++ partsText cs⟩ := congrArg Path.mk (text_ofParts h)
    rw [hleft, push_partsText h hd hne, ← text_ofParts hall, components_ofParts hall]

theorem join_ofParts (h : ∀ c ∈ cs, c.Proper) (hd : ∀ c ∈ ds, c.Proper) (hne : ds ≠ []) :
    (ofParts rooted cs).join (ofParts false ds) = ofParts rooted (cs ++ ds) := by
  have hall : ∀ c ∈ cs ++ ds, c.Proper := forall_mem_append.mpr ⟨h, hd⟩
  have hleft : ofParts rooted cs = ⟨leadText rooted ++ partsText cs⟩ := congrArg Path.mk (text_ofParts h)
  have hright : (ofParts false ds).text = partsText ds := text_ofParts hd
  rw [join, hright, hleft, push_partsText h hd hne, ← text_ofParts hall]

/-! ## Parents -/

theorem segments_partsText (h : ∀ c ∈ cs, c.Proper) (hne : cs ≠ []) :
    segments (partsText cs) = cs.map Component.text := by
  refine splitOn_intercalate '/' (fun t ht => ?_) (by simpa using hne)
  obtain ⟨c, hc, rfl⟩ := mem_map.mp ht
  exact (h c hc).slash

theorem split_partsText (h : ∀ c ∈ cs, c.Proper) (hne : cs ≠ []) :
    split (leadText rooted ++ partsText cs) = (if rooted then some .root else none, partsText cs) := by
  cases rooted with
  | true => rfl
  | false =>
    obtain ⟨c, rest, rfl⟩ := exists_cons_of_ne_nil hne
    have hc := h c (by simp)
    have hs := segments_partsText h hne
    refine split_other (head?_partsText h hne) ?_ ?_
    · intro he
      rw [leadText, if_neg (by simp), nil_append] at he
      rw [he] at hs
      exact hc.ne_dot (List.cons.inj hs).1.symm
    · rintro ⟨rest', he⟩
      rw [leadText, if_neg (by simp), nil_append] at he
      rw [← he] at hs
      exact hc.ne_dot (List.cons.inj hs).1.symm

theorem trimSegments_texts (h : ∀ c ∈ cs, c.Proper) :
    trimSegments (cs.map Component.text) = cs.map Component.text := by
  rcases eq_nil_or_concat cs with rfl | ⟨init, d, rfl⟩
  · rfl
  · simp [trimSegments, Component.ofSegment_text (h d (by simp))]

theorem parent_ofParts (h : ∀ c ∈ cs, c.Proper) (hc : c.Proper) :
    (ofParts rooted (cs ++ [c])).parent = some (ofParts rooted cs) := by
  have hall : ∀ d ∈ cs ++ [c], d.Proper := forall_mem_append.mpr ⟨h, forall_mem_singleton.mpr hc⟩
  have hleft : ofParts rooted cs = ⟨leadText rooted ++ partsText cs⟩ := congrArg Path.mk (text_ofParts h)
  have htrim : (trimSegments ((cs ++ [c]).map Component.text)).reverse =
      c.text :: (cs.map Component.text).reverse := by
    rw [trimSegments_texts hall]
    simp
  simp only [parent, text_ofParts hall, split_partsText hall (by simp : cs ++ [c] ≠ []),
    segments_partsText hall (by simp : cs ++ [c] ≠ []), htrim, reverse_reverse,
    trimSegments_texts h, hleft]
  cases rooted <;> rfl

theorem parent_anchored {above : Bool} {names : List Text} {n : Text} (h : ∀ m ∈ names ++ [n], IsName m) :
    (anchored above (names ++ [n])).parent = some (anchored above names) := by
  rw [anchored_ofParts, map_append, ← List.append_assoc]
  exact parent_ofParts (anchored_proper fun m hm => h m (by simp [hm])) (h n (by simp))

theorem fileName_ofParts (h : ∀ c ∈ cs, c.Proper) {n : Text} (hn : IsName n) :
    (ofParts rooted (cs ++ [.name n])).fileName = some n := by
  have hall : ∀ d ∈ cs ++ [.name n], d.Proper := forall_mem_append.mpr ⟨h, forall_mem_singleton.mpr hn⟩
  rw [fileName, components_ofParts hall, ← List.append_assoc, getLast?_concat]

/-! ## Normal forms -/

theorem foldl_normalStep_names (names : List Text) (done : List Component) :
    (names.map Component.name).foldl normalStep done = (names.map .name).reverse ++ done := by
  induction names generalizing done with
  | nil => rfl
  | cons n rest ih => simp [normalStep, ih]

theorem foldl_normalStep_up (names : List Text) (done : List Component) :
    (names.map fun _ => Component.up).foldl normalStep (names.map .name ++ done) = done := by
  induction names with
  | nil => rfl
  | cons n rest ih => exact ih

theorem normalParts_detour (h : cs.foldl normalStep [] = cs.reverse) (shared up down : List Text) :
    normalParts (cs ++ (shared ++ up).map .name ++ (up.map (fun _ => Component.up) ++ down.map .name)) =
      cs ++ (shared ++ down).map .name := by
  have hup : up.map (fun _ => Component.up) = up.reverse.map fun _ => Component.up := by simp
  have hfrom : ((shared ++ up).map .name).foldl normalStep cs.reverse =
      up.reverse.map .name ++ ((shared.map .name).reverse ++ cs.reverse) := by
    rw [foldl_normalStep_names]
    simp
  rw [normalParts, foldl_append, foldl_append, foldl_append, h, hfrom, hup,
    foldl_normalStep_up, foldl_normalStep_names]
  simp

theorem dropShared_spec (as bs : List Component) :
    ∃ shared, as = shared ++ (dropShared as bs).1 ∧ bs = shared ++ (dropShared as bs).2 := by
  fun_induction dropShared as bs with
  | case1 as b bs ih =>
    obtain ⟨shared, ha, hb⟩ := ih
    exact ⟨b :: shared, congrArg (b :: ·) ha, congrArg (b :: ·) hb⟩
  | case2 => exact ⟨[], rfl, rfl⟩
  | case3 => exact ⟨[], rfl, rfl⟩

end

theorem resolve_ofParts (p cwd : Path) :
    ∃ rooted cs, (∀ c ∈ cs, c.Proper) ∧
      (lead rooted ++ cs).foldl normalStep [] = (lead rooted ++ cs).reverse ∧
      p.resolve cwd = ofParts rooted cs := by
  rcases resolve_cases p cwd with ⟨-, hr⟩ | ⟨above, names, hnames, hr⟩
  · exact ⟨false, [], by simp, rfl, hr⟩
  · rw [anchored_ofParts] at hr
    refine ⟨true, _, anchored_proper hnames, ?_, hr⟩
    have hn := congrArg List.reverse (normalParts_anchor above names)
    rw [normalParts, reverse_reverse] at hn
    exact hn

end Path

end Runbook
