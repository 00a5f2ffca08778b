import Runbook.Path
import Runbook.Proofs.Text

/-!
# Normal forms of paths

The parts of a path are those it was put together from, and every resolved path is empty or has one
shape: the root, at most one step above it, and then names. Resolving twice changes nothing.
-/

open List

namespace Runbook
open Component

/-! ## Parts that stand in the body of a path -/

def IsName (n : Text) : Prop := n ≠ [] ∧ n ≠ ['.'] ∧ n ≠ ['.', '.'] ∧ '/' ∉ n

/-- A step upwards or a name, which are the parts that can follow a lead. -/
def Component.Proper : Component → Prop
  | .up => True
  | .name n => IsName n
  | _ => False

namespace Component

variable {c : Component}

theorem ofSegment_text (h : c.Proper) : ofSegment c.text = some c := by
  cases c with
  | up => rfl
  | name n => simp [ofSegment, text, h.1, h.2.1, h.2.2.1]
  | root => exact h.elim
  | here => exact h.elim

theorem proper_of_ofSegment {s : Text} (hs : '/' ∉ s) (h : ofSegment s = some c) : c.Proper := by
  simp only [ofSegment] at h
  split at h
  · cases h
  · rename_i h₁
    split at h
    · cases h
      trivial
    · rename_i h₂
      cases h
      exact ⟨fun he => h₁ (Or.inl he), fun he => h₁ (Or.inr he), h₂, hs⟩

theorem Proper.slash (h : c.Proper) : '/' ∉ c.text := by
  cases c with
  | up => decide
  | name n => exact h.2.2.2
  | root => exact h.elim
  | here => exact h.elim

theorem Proper.ne_dot (h : c.Proper) : c.text ≠ ['.'] := by
  cases c with
  | up => decide
  | name n => exact h.2.1
  | root => exact h.elim
  | here => exact h.elim

/-! ## Order -/

theorem le_total (a b : Component) : le a b = true ∨ le b a = true := by
  cases a <;> cases b <;> simp [le]
  rw [Text.le_iff, Text.le_iff]
  exact List.le_total _ _

theorem le_antisymm {a b : Component} (h : le a b = true) (h' : le b a = true) : a = b := by
  cases a <;> cases b <;> simp_all [le]
  exact List.le_antisymm (Text.le_iff.mp h) (Text.le_iff.mp h')

theorem le_trans {a b : Component} (h : le a b = true) (h' : le b c = true) : le a c = true := by
  cases a <;> cases b <;> cases c <;> simp_all [le]
  exact Text.le_iff.mpr (List.le_trans (Text.le_iff.mp h) (Text.le_iff.mp h'))

end Component

namespace Path

variable {p : Path} {c : Component} {cs : List Component} {names : List Text}

theorem le_total (p q : Path) : le p q = true ∨ le q p = true := by
  simp only [le]
  generalize p.components = as
  generalize q.components = bs
  induction as generalizing bs with
  | nil => exact .inl rfl
  | cons a as ih =>
    cases bs with
    | nil => exact .inr rfl
    | cons b bs =>
      by_cases hab : a = b
      · subst hab
        simpa [le.go] using ih bs
      · simpa [le.go, hab, Ne.symm hab] using Component.le_total a b

theorem le_trans {q r : Path} (h : le p q = true) (h' : le q r = true) : le p r = true := by
  simp only [le] at h h' ⊢
  revert h h'
  generalize p.components = as
  generalize q.components = bs
  generalize r.components = cs
  intro h h'
  induction as generalizing bs cs with
  | nil => rfl
  | cons a as ih =>
    cases bs with
    | nil => cases h
    | cons b bs =>
      cases cs with
      | nil => cases h'
      | cons c cs =>
        simp only [le.go] at h h' ⊢
        by_cases hab : a = b
        · subst hab
          by_cases hac : a = c
          · simp only [hac, ↓reduceIte] at h h' ⊢
            exact ih bs cs h h'
          · simpa [hac] using h'
        · by_cases hbc : b = c
          · subst hbc
            simpa [hab] using h
          · simp only [hab, hbc, ↓reduceIte] at h h'
            -- parts that differ cannot come back to the first one
            have hac : a ≠ c := fun he => hab (le_antisymm h (he ▸ h'))
            rw [if_neg hac]
            exact Component.le_trans h h'

def bodyParts (body : Text) : List Component := (segments body).filterMap ofSegment

theorem components_eq (p : Path) : p.components = (split p.text).1.toList ++ bodyParts (split p.text).2 :=
  rfl

theorem proper_of_mem_bodyParts {body : Text} (h : c ∈ bodyParts body) : c.Proper := by
  obtain ⟨s, hs, hc⟩ := mem_filterMap.mp h
  exact proper_of_ofSegment (Text.not_mem_of_mem_splitOn hs) hc

theorem bodyParts_append_slash (a b : Text) :
    bodyParts (a ++ '/' :: b) = bodyParts a ++ bodyParts b := by
  simp only [bodyParts, segments]
  rw [splitOn_append_cons_self, filterMap_append]

theorem bodyParts_nil : bodyParts [] = [] := rfl

theorem bodyParts_segment {s : Text} (hs : '/' ∉ s) : bodyParts s = (ofSegment s).toList := by
  have hone : segments s = [s] := splitOn_eq_singleton hs
  simp only [bodyParts, hone, filterMap_cons, filterMap_nil]
  cases ofSegment s <;> rfl

/-! ## Pushing -/

theorem split_other {t : Text} (h₁ : t.head? ≠ some '/') (h₂ : t ≠ ['.']) (h₃ : ¬ ['.', '/'] <+: t) :
    split t = (none, t) := by
  unfold split
  split
  · simp at h₁
  · exact absurd rfl h₂
  · simp at h₃
  · rfl

/-- The four ways in which a path can start: at the root, with a dot alone or before a slash, or with
neither. -/
theorem lead_cases (q : Text) :
    (∃ body, q = '/' :: body) ∨ q = ['.'] ∨ (∃ body, q = '.' :: '/' :: body) ∨
      (q.head? ≠ some '/' ∧ q ≠ ['.'] ∧ ¬ ['.', '/'] <+: q) := by
  by_cases h₁ : q.head? = some '/'
  · obtain ⟨body, rfl⟩ := head?_eq_some_iff.mp h₁
    exact Or.inl ⟨body, rfl⟩
  by_cases h₂ : q = ['.']
  · exact Or.inr (Or.inl h₂)
  by_cases h₃ : ['.', '/'] <+: q
  · obtain ⟨body, rfl⟩ := h₃
    exact Or.inr (Or.inr (Or.inl ⟨body, rfl⟩))
  · exact Or.inr (Or.inr (Or.inr ⟨h₁, h₂, h₃⟩))

theorem components_append_slash {q : Text} (hq : q ≠ []) (t : Text) :
    components ⟨q ++ '/' :: t⟩ = components ⟨q⟩ ++ bodyParts t := by
  rcases lead_cases q with ⟨body, rfl⟩ | rfl | ⟨body, rfl⟩ | ⟨h₁, h₂, h₃⟩
  · exact congrArg (root :: ·) (bodyParts_append_slash body t)
  · exact congrArg (here :: ·) (bodyParts_append_slash [] t)
  · exact congrArg (here :: ·) (bodyParts_append_slash ('/' :: body) t)
  · have hs : split (q ++ '/' :: t) = (none, q ++ '/' :: t) := by
      obtain ⟨c, rest, rfl⟩ := exists_cons_of_ne_nil hq
      apply split_other
      · simpa using h₁
      · simp
      · cases rest with
        | nil => simpa [eq_comm] using h₂
        | cons d more => simpa using h₃
    rw [components_eq, components_eq, hs, split_other h₁ h₂ h₃, bodyParts_append_slash]
    rfl

theorem components_push {t : Text} (hs : '/' ∉ t) (hd : t ≠ ['.']) (p : Path) :
    components (p.push t) = p.components ++ (ofSegment t).toList := by
  have hh : t.head? ≠ some '/' := by
    intro h
    obtain ⟨rest, rfl⟩ := head?_eq_some_iff.mp h
    exact hs (by simp)
  obtain ⟨q⟩ := p
  rw [← bodyParts_segment hs]
  simp only [push, hh, ↓reduceIte]
  split
  · rename_i h
    by_cases hq : q = []
    · subst hq
      have hl : ¬ ['.', '/'] <+: t := by
        rintro ⟨rest, rfl⟩
        exact hs (by simp)
      have ht : components ⟨t⟩ = bodyParts t := by
        rw [components_eq, split_other hh hd hl]
        rfl
      exact ht
    · -- the path ends in a slash, which separates the segment from what comes before
      obtain ⟨init, rfl⟩ := getLast?_eq_some_iff.mp (h.resolve_left hq)
      rw [List.append_assoc, singleton_append]
      by_cases hi : init = []
      · subst hi
        rfl
      · rw [components_append_slash hi, components_append_slash hi, bodyParts_nil, append_nil]
  · rename_i h
    exact components_append_slash (fun hq => h (Or.inl hq)) t

theorem components_extend (h : ∀ c ∈ cs, c.Proper) (p : Path) :
    components (p.extend cs) = p.components ++ cs := by
  induction cs generalizing p with
  | nil => simp [extend]
  | cons c cs ih =>
    have hc := h c (by simp)
    have : components (p.push c.text) = p.components ++ [c] := by
      rw [components_push hc.slash hc.ne_dot, ofSegment_text hc]
      rfl
    rw [extend, foldl_cons, ← extend, ih (fun d hd => h d (by simp [hd])), this,
      List.append_assoc, singleton_append]

theorem ofComponents_root (cs : List Component) : ofComponents (.root :: cs) = extend ⟨['/']⟩ cs := rfl

theorem components_ofComponents_root (h : ∀ c ∈ cs, c.Proper) :
    components (ofComponents (.root :: cs)) = .root :: cs := by
  rw [ofComponents_root, components_extend h]
  rfl

theorem components_ofComponents (h : ∀ c ∈ cs, c.Proper) : components (ofComponents cs) = cs := by
  rw [ofComponents, components_extend h]
  rfl

/-! ## Absolute paths -/

theorem isAbsolute_iff : p.isAbsolute = true ↔ ∃ body, p = ⟨'/' :: body⟩ := by
  obtain ⟨t⟩ := p
  simp [isAbsolute, head?_eq_some_iff]

theorem isAbsolute_push (h : p.isAbsolute = true) (t : Text) : (p.push t).isAbsolute = true := by
  obtain ⟨body, rfl⟩ := isAbsolute_iff.mp h
  simp only [push]
  split
  · rename_i ht
    simpa [isAbsolute] using ht
  · split <;> simp [isAbsolute]

theorem isAbsolute_extend (h : p.isAbsolute = true) (cs : List Component) :
    (p.extend cs).isAbsolute = true := by
  induction cs generalizing p with
  | nil => exact h
  | cons c cs ih => exact ih (isAbsolute_push h c.text)

def tailParts (p : Path) : List Component := bodyParts (split p.text).2

theorem proper_of_mem_tailParts (h : c ∈ p.tailParts) : c.Proper :=
  proper_of_mem_bodyParts h

theorem components_of_isAbsolute (h : p.isAbsolute = true) : p.components = .root :: p.tailParts := by
  obtain ⟨body, rfl⟩ := isAbsolute_iff.mp h
  rfl

theorem filter_here (h : p.isAbsolute = false) : p.components.filter (· ≠ .here) = p.tailParts := by
  have htail : p.tailParts.filter (· ≠ .here) = p.tailParts := by
    refine filter_eq_self.mpr fun c hc => ?_
    have hp := proper_of_mem_tailParts hc
    cases c with
    | here => exact hp.elim
    | root => exact hp.elim
    | up => rfl
    | name n => rfl
  have hlead : (split p.text).1.toList.filter (· ≠ .here) = [] := by
    rcases lead_cases p.text with ⟨body, hb⟩ | hb | ⟨body, hb⟩ | ⟨h₁, h₂, h₃⟩
    · simp [isAbsolute, hb] at h
    · simp [hb, split]
    · simp [hb, split]
    · simp [split_other h₁ h₂ h₃]
  rw [components_eq, filter_append, hlead, nil_append]
  exact htail

theorem components_push_nil (p : Path) : components (p.push []) = p.components := by
  simpa [ofSegment] using components_push (t := []) (by simp) (by simp) p

theorem components_absolute_of_isAbsolute (h : p.isAbsolute = true) (cwd : Path) :
    (absolute cwd p).components = p.components := by
  have hcs : ∀ c ∈ p.tailParts, c.Proper := fun _ => proper_of_mem_tailParts
  have hwhole : components (extend "//" p.tailParts) = .root :: p.tailParts := components_extend hcs _
  have hp := components_of_isAbsolute h
  obtain ⟨body, rfl⟩ := isAbsolute_iff.mp h
  simp only [absolute, hp, h, ↓reduceIte, reduceCtorEq, drop_succ_cons, drop_zero]
  split <;> split <;>
    simp only [components_push_nil, hwhole, components_ofComponents_root hcs]

theorem components_absolute_of_relative (h : p.text ≠ []) (hf : p.isAbsolute = false) (cwd : Path) :
    (absolute cwd p).components = .root :: ((Path.push "/" cwd.text).tailParts ++ p.tailParts) := by
  have hslash : (p.text.startsWith "//") = false := by
    rw [← Bool.not_eq_true]
    intro hs
    obtain ⟨rest, hr⟩ := isPrefixOf_iff_prefix.mp hs
    simp [isAbsolute, ← hr] at hf
  have hroot := components_of_isAbsolute (isAbsolute_push (p := "/") rfl cwd.text)
  have hwhole : components (extend (Path.push "/" cwd.text) (p.components.filter (· ≠ .here))) =
      .root :: ((Path.push "/" cwd.text).tailParts ++ p.tailParts) := by
    rw [filter_here hf, components_extend fun _ => proper_of_mem_tailParts, hroot, cons_append]
  simp only [absolute, hslash, hf, h, Bool.false_and, Bool.false_eq_true, ↓reduceIte]
  split <;> simp only [components_push_nil, hwhole]

theorem components_absolute (h : p.text ≠ []) (cwd : Path) :
    ∃ before, (∀ c ∈ before ++ p.tailParts, c.Proper) ∧
      (absolute cwd p).components = .root :: (before ++ p.tailParts) := by
  by_cases ha : p.isAbsolute = true
  · refine ⟨[], fun c hc => proper_of_mem_tailParts hc, ?_⟩
    rw [components_absolute_of_isAbsolute ha, components_of_isAbsolute ha]
    rfl
  · refine ⟨(Path.push "/" cwd.text).tailParts, forall_mem_append.mpr
      ⟨fun _ => proper_of_mem_tailParts, fun _ => proper_of_mem_tailParts⟩, ?_⟩
    exact components_absolute_of_relative h (by simpa using ha) cwd

/-! ## Normal forms -/

/-- The parts of an absolute normal form: the root, perhaps a step above it, and names. -/
def anchor (above : Bool) (names : List Text) : List Component :=
  .root :: (if above then [.up] else []) ++ names.map .name

/-- The absolute normal form with the given names. -/
def anchored (above : Bool) (names : List Text) : Path := ofComponents (anchor above names)

theorem anchor_proper (above : Bool) (h : ∀ n ∈ names, IsName n) :
    ∃ cs, (∀ c ∈ cs, c.Proper) ∧ anchor above names = .root :: cs := by
  refine ⟨(if above then [.up] else []) ++ names.map .name, ?_, rfl⟩
  intro c hc
  rcases mem_append.mp hc with hc | hc
  · cases above <;> simp at hc
    subst hc
    trivial
  · obtain ⟨n, hn, rfl⟩ := mem_map.mp hc
    exact h n hn

theorem components_anchored {above : Bool} (h : ∀ n ∈ names, IsName n) :
    (anchored above names).components = anchor above names := by
  obtain ⟨cs, hcs, he⟩ := anchor_proper above h
  rw [anchored, he, components_ofComponents_root hcs]

theorem isAbsolute_anchored (above : Bool) (names : List Text) :
    (anchored above names).isAbsolute = true :=
  isAbsolute_extend (p := ⟨['/']⟩) rfl _

theorem anchored_inj {a b : Bool} {ns ms : List Text} (hn : ∀ n ∈ ns, IsName n) (hm : ∀ n ∈ ms, IsName n)
    (h : anchored a ns = anchored b ms) : a = b ∧ ns = ms := by
  have hc : anchor a ns = anchor b ms := by rw [← components_anchored hn, h, components_anchored hm]
  have hinj : ∀ xs ys : List Text, xs.map name = ys.map .name → xs = ys := fun xs ys =>
    (List.map_inj_right fun _ _ => name.inj).mp
  cases a <;> cases b <;> simp only [anchor, Bool.false_eq_true, ↓reduceIte, cons_append,
    nil_append, List.cons.injEq, true_and] at hc
  · exact ⟨rfl, hinj _ _ hc⟩
  · cases ns <;> simp at hc
  · cases ms <;> simp at hc
  · exact ⟨rfl, hinj _ _ hc⟩

theorem normalStep_anchor (above : Bool) (h : ∀ n ∈ names, IsName n) (hc : c.Proper) :
    ∃ above' names', (∀ n ∈ names', IsName n) ∧
      normalStep (anchor above names).reverse c = (anchor above' names').reverse := by
  cases c with
  | root => exact hc.elim
  | here => exact hc.elim
  | name n =>
    refine ⟨above, names ++ [n], ?_, by simp [anchor, normalStep]⟩
    intro m hm
    rcases mem_append.mp hm with hm | hm
    · exact h m hm
    · rw [mem_singleton.mp hm]
      exact hc
  | up =>
    rcases eq_nil_or_concat names with rfl | ⟨init, last, rfl⟩
    · cases above
      · exact ⟨true, [], by simp, rfl⟩
      · exact ⟨false, [], by simp, rfl⟩
    · refine ⟨above, init, fun m hm => h m (by simp [hm]), ?_⟩
      cases above <;> simp [anchor, normalStep]

theorem foldl_normalStep_anchor (above : Bool) (h : ∀ n ∈ names, IsName n) (hcs : ∀ c ∈ cs, c.Proper) :
    ∃ above' names', (∀ n ∈ names', IsName n) ∧
      cs.foldl normalStep (anchor above names).reverse = (anchor above' names').reverse := by
  induction cs generalizing above names with
  | nil => exact ⟨above, names, h, rfl⟩
  | cons c cs ih =>
    obtain ⟨a, ns, hns, hs⟩ := normalStep_anchor above h (hcs c (by simp))
    obtain ⟨a', ns', hns', hs'⟩ := ih a hns fun d hd => hcs d (by simp [hd])
    exact ⟨a', ns', hns', by rw [foldl_cons, hs, hs']⟩

theorem normalParts_root (hcs : ∀ c ∈ cs, c.Proper) :
    ∃ above names, (∀ n ∈ names, IsName n) ∧ normalParts (.root :: cs) = anchor above names := by
  obtain ⟨a, ns, hns, hs⟩ := foldl_normalStep_anchor false (fun _ h => (not_mem_nil h).elim) hcs
  refine ⟨a, ns, hns, ?_⟩
  rw [normalParts, foldl_cons]
  exact (congrArg List.reverse hs).trans (reverse_reverse _)

theorem normalParts_anchor (above : Bool) (names : List Text) :
    normalParts (anchor above names) = anchor above names := by
  have hn : ∀ (ns : List Text) (done : List Component),
      (ns.map name).foldl normalStep done = (ns.map .name).reverse ++ done := by
    intro ns
    induction ns with
    | nil => intro done; rfl
    | cons n ns ih => intro done; simp [normalStep, ih]
  cases above <;> simp [normalParts, anchor, normalStep, hn]

theorem resolve_cases (p cwd : Path) :
    (p.text = [] ∧ p.resolve cwd = ⟨[]⟩) ∨
      ∃ above names, (∀ n ∈ names, IsName n) ∧ p.resolve cwd = anchored above names := by
  by_cases h : p.text = []
  · obtain ⟨t⟩ := p
    subst h
    exact Or.inl ⟨rfl, by simp [resolve, absolute, normalize]; rfl⟩
  · obtain ⟨before, hcs, hp⟩ := components_absolute h cwd
    obtain ⟨a, ns, hns, hn⟩ := normalParts_root hcs
    exact Or.inr ⟨a, ns, hns, by rw [resolve, normalize, hp, hn, anchored]⟩

theorem resolve_of_name {n : Text} (h : p.tailParts = cs ++ [.name n]) (cwd : Path) :
    ∃ above names, (∀ m ∈ names ++ [n], IsName m) ∧ p.resolve cwd = anchored above (names ++ [n]) := by
  have hne : p.text ≠ [] := by
    intro he
    rw [tailParts, he] at h
    simp [split, bodyParts_nil] at h
  have hname : IsName n := proper_of_mem_tailParts (p := p) (c := .name n) (by simp [h])
  obtain ⟨before, hcs, hp⟩ := components_absolute hne cwd
  rw [h, ← List.append_assoc] at hcs hp
  obtain ⟨a, ns, hns, hn⟩ := normalParts_root fun c hc => hcs c (mem_append_left _ hc)
  refine ⟨a, ns, forall_mem_append.mpr ⟨hns, forall_mem_singleton.mpr hname⟩, ?_⟩
  have hlast : normalParts (.root :: (before ++ cs ++ [.name n])) =
      normalParts (.root :: (before ++ cs)) ++ [.name n] := by
    rw [normalParts, ← cons_append, foldl_append]
    simp [normalParts, normalStep]
  rw [resolve, normalize, hp, hlast, hn, anchored]
  simp [anchor]

theorem resolve_anchored {above : Bool} (h : ∀ n ∈ names, IsName n) (cwd : Path) :
    (anchored above names).resolve cwd = anchored above names := by
  rw [resolve, normalize, components_absolute_of_isAbsolute (isAbsolute_anchored above names),
    components_anchored h, normalParts_anchor, anchored]

theorem resolve_resolve (p cwd cwd' : Path) : (p.resolve cwd).resolve cwd' = p.resolve cwd := by
  rcases resolve_cases p cwd with ⟨_, h⟩ | ⟨a, ns, hns, h⟩
  · rw [h]
    rfl
  · rw [h, resolve_anchored hns]

end Path

end Runbook
