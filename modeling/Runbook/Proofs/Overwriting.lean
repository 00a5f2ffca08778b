import Runbook.Proofs.FileTree

/-!
# Writing what is there

Writing to a file that is there replaces its contents and nothing else. So the tree after a run of such
writes depends on the last write to each place alone, and it is the tree before if that is what the files
held. Creating directories that are there changes nothing either.
-/

open List

namespace Runbook

namespace Node

/-! ## Setting what is there -/

section

variable {children : List (Text × Node)} {name other : Text}

theorem setChild_setChild (name : Text) (x y : Node) (children : List (Text × Node)) :
    setChild name y (setChild name x children) = setChild name y children := by
  induction children with
  | nil => simp [setChild]
  | cons entry rest ih => by_cases h : entry.1 = name <;> simp [setChild, h, ih]

theorem setChild_comm (hne : name ≠ other) (hx : (children.lookup name).isSome = true)
    (hy : (children.lookup other).isSome = true) (x y : Node) :
    setChild other y (setChild name x children) = setChild name x (setChild other y children) := by
  induction children with
  | nil => cases hx
  | cons entry rest ih =>
    obtain ⟨n, old⟩ := entry
    by_cases hn : n = name
    · subst hn
      simp [setChild, hne]
    · by_cases ho : n = other
      · subst ho
        simp [setChild, hn]
      · rw [lookup_cons, beq_eq_false_iff_ne.mpr (Ne.symm hn)] at hx
        rw [lookup_cons, beq_eq_false_iff_ne.mpr (Ne.symm ho)] at hy
        simp [setChild, hn, ho, ih hx hy]

end

section

variable {r node : Node} {p q : Place}

theorem set_get? (h : r.get? q = some node) : r.set q node = r := by
  induction q generalizing r with
  | nil => cases r <;> cases h <;> rfl
  | cons n rest ih =>
    obtain ⟨children, child, rfl, hl, hc⟩ := get?_cons_eq_some h
    rw [set_cons hl, ih hc, setChild_self hl]

theorem set_set (h : r.get? q = some node) (a b : Node) : (r.set q a).set q b = r.set q b := by
  induction q generalizing r with
  | nil => cases r <;> cases a <;> rfl
  | cons n rest ih =>
    obtain ⟨children, child, rfl, hl, hc⟩ := get?_cons_eq_some h
    have hl' : (setChild n (child.set rest a) children).lookup n = some (child.set rest a) := by
      simp [lookup_setChild]
    rw [set_cons hl, set_cons hl', set_cons hl, setChild_setChild, ih hc]

theorem set_comm {mode mode' : Nat} {contents contents' : Bytes} (hp : r.get? p = some (.file mode contents))
    (hq : r.get? q = some (.file mode' contents')) (hne : p ≠ q) (a b : Node) :
    (r.set p a).set q b = (r.set q b).set p a := by
  induction p generalizing r q with
  | nil =>
    obtain rfl : r = .file mode contents := by cases r <;> cases hp; rfl
    obtain ⟨n, rest, rfl⟩ := exists_cons_of_ne_nil (Ne.symm hne)
    cases hq
  | cons n ps ih =>
    obtain ⟨children, child, rfl, hl, hc⟩ := get?_cons_eq_some hp
    cases q with
    | nil => cases hq
    | cons k qs =>
      obtain ⟨child', hl', hc'⟩ := Option.bind_eq_some_iff.mp hq
      have hset : ∀ (name : Text) (new : Node),
          (setChild name new children).lookup name = some new := by
        intro name new
        simp [lookup_setChild]
      by_cases hk : n = k
      -- the places part further down
      · subst hk
        cases hl.symm.trans hl'
        have hrest : ps ≠ qs := fun he => hne (he ▸ rfl)
        rw [set_cons hl, set_cons hl, set_cons (hset n _), set_cons (hset n _), setChild_setChild,
          setChild_setChild, ih hc hc' hrest]
      · have hother : (setChild n (child.set ps a) children).lookup k = some child' := by
          rw [lookup_setChild, if_neg (Ne.symm hk), hl']
        have hother' : (setChild k (child'.set qs b) children).lookup n = some child := by
          rw [lookup_setChild, if_neg hk, hl]
        rw [set_cons hl, set_cons hl', set_cons hother, set_cons hother',
          setChild_comm hk (by simp [hl]) (by simp [hl'])]

end

/-! ## Replacing contents -/

/-- The tree with other contents in the file at the place, if there is one. -/
def refill (r : Node) (q : Place) (contents : Bytes) : Node :=
  match r.get? q with
  | some (.file mode _) => r.set q (.file mode contents)
  | _ => r

def refillAll (r : Node) (writes : List (Place × Bytes)) : Node := writes.foldl (fun r w => r.refill w.1 w.2) r

def FileAt (r : Node) (q : Place) : Prop := ∃ mode contents, r.get? q = some (.file mode contents)

/-- The tree holds the last of the writes to each place. -/
def Holds (r : Node) : List (Place × Bytes) → Prop
  | [] => True
  | (q, contents) :: rest =>
    (q ∉ rest.map Prod.fst → ∃ mode, r.get? q = some (.file mode contents)) ∧ r.Holds rest

section

variable {r : Node} {p q : Place} {mode : Nat} {contents old : Bytes} {writes : List (Place × Bytes)}

theorem refill_eq (h : r.get? q = some (.file mode old)) (contents : Bytes) :
    r.refill q contents = r.set q (.file mode contents) := by
  simp [refill, h]

theorem kept_refill (r : Node) (q : Place) (contents : Bytes) : Kept (· = q) r (r.refill q contents) := by
  unfold refill
  split
  · rename_i h
    exact kept_set (by simp [h]) trivial
  · exact .refl _ _

theorem get?_refill (h : r.get? q = some (.file mode old)) (contents : Bytes) :
    (r.refill q contents).get? q = some (.file mode contents) := by
  rw [refill_eq h, get?_set h]

theorem FileAt.refill (h : r.FileAt p) (q : Place) (contents : Bytes) : (r.refill q contents).FileAt p := by
  obtain ⟨mode, old, hp⟩ := h
  by_cases hpq : p = q
  · subst hpq
    exact ⟨mode, contents, get?_refill hp contents⟩
  · exact ⟨mode, old, ((kept_refill r q contents).files p hpq mode old).mpr hp⟩

theorem refill_self (h : r.get? q = some (.file mode contents)) : r.refill q contents = r := by
  rw [refill_eq h, set_get? h]

theorem refill_refill (h : r.FileAt q) (old contents : Bytes) :
    (r.refill q old).refill q contents = r.refill q contents := by
  obtain ⟨mode, first, hq⟩ := h
  rw [refill_eq (get?_refill hq old), refill_eq hq, refill_eq hq, set_set hq]

theorem refill_comm (hp : r.FileAt p) (hq : r.FileAt q) (hne : p ≠ q) (c d : Bytes) :
    (r.refill p c).refill q d = (r.refill q d).refill p c := by
  obtain ⟨mode, old, hp⟩ := hp
  obtain ⟨mode', old', hq⟩ := hq
  have hq' := ((kept_refill r p c).files q (Ne.symm hne) mode' old').mpr hq
  have hp' := ((kept_refill r q d).files p hne mode old).mpr hp
  rw [refill_eq hq', refill_eq hp', refill_eq hp, refill_eq hq, set_comm hp hq hne]

theorem refillAll_refill (hfiles : ∀ w ∈ writes, r.FileAt w.1) (hq : q ∈ writes.map Prod.fst)
    (contents : Bytes) :
    (r.refill q contents).refillAll writes = r.refillAll writes := by
  -- the write moves behind the writes to other places, up to the next one to its own
  induction writes generalizing r with
  | nil => cases hq
  | cons w writes ih =>
    have hw := hfiles w mem_cons_self
    by_cases hwq : w.1 = q
    · have hsame : (r.refill q contents).refill w.1 w.2 = r.refill w.1 w.2 := by
        rw [← hwq]
        exact refill_refill hw contents w.2
      exact congrArg (refillAll · writes) hsame
    · have hmem : q ∈ writes.map Prod.fst := (mem_cons.mp hq).resolve_left (Ne.symm hwq)
      obtain ⟨w', hw', hq'⟩ := mem_map.mp hmem
      have hfile : r.FileAt q := hq' ▸ hfiles w' (mem_cons_of_mem _ hw')
      have hcomm := refill_comm hfile hw (Ne.symm hwq) contents w.2
      have hrest := ih (r := r.refill w.1 w.2)
        (fun v hv => (hfiles v (mem_cons_of_mem _ hv)).refill _ _) hmem
      exact (congrArg (refillAll · writes) hcomm).trans hrest

theorem Holds.fileAt (h : r.Holds writes) : ∀ w ∈ writes, r.FileAt w.1 := by
  induction writes with
  | nil => simp
  | cons w writes ih =>
    intro v hv
    rcases mem_cons.mp hv with rfl | hv
    · by_cases hmem : v.1 ∈ writes.map Prod.fst
      · obtain ⟨u, hu, huv⟩ := mem_map.mp hmem
        exact huv ▸ ih h.2 u hu
      · obtain ⟨mode, hm⟩ := h.1 hmem
        exact ⟨mode, _, hm⟩
    · exact ih h.2 v hv

theorem Holds.refillAll (h : r.Holds writes) : r.refillAll writes = r := by
  induction writes with
  | nil => rfl
  | cons w writes ih =>
    by_cases hmem : w.1 ∈ writes.map Prod.fst
    · exact (refillAll_refill h.2.fileAt hmem w.2).trans (ih h.2)
    · obtain ⟨mode, hm⟩ := h.1 hmem
      exact (congrArg (Node.refillAll · writes) (refill_self hm)).trans (ih h.2)

theorem FileAt.refillAll (h : r.FileAt p) (writes : List (Place × Bytes)) : (r.refillAll writes).FileAt p := by
  induction writes generalizing r with
  | nil => exact h
  | cons w writes ih => exact ih (h.refill w.1 w.2)

end

end Node

namespace FileTree

variable {r : Node} {children : List (Text × Node)}
variable {changed : Place → Prop} {t t₁ u : FileTree} {p : Path} {place : Place}

/-- The tree with other contents in the files at the places. -/
def refillAll (t : FileTree) (writes : List (Place × Bytes)) : FileTree :=
  { t with root := t.root.refillAll writes }

theorem dir_top (h : r.get? place = some (.dir children)) : ∃ children', r.get? [] = some (.dir children') := by
  cases place with
  | nil => exact ⟨children, h⟩
  | cons n rest => exact Node.dir_of_get?_append (a := []) h

theorem dir_dropLast (h : r.get? place = some (.dir children)) :
    ∃ children', r.get? place.dropLast = some (.dir children') := by
  rcases eq_nil_or_concat place with rfl | ⟨a, n, rfl⟩
  · exact ⟨children, h⟩
  · rw [concat_eq_append] at h ⊢
    rw [dropLast_concat]
    exact Node.dir_of_get?_append h

theorem createStep_again {r₁ : Node} {last : Bool} {place₁ : Place} {segment : Text}
    (hd : r.get? place = some (.dir children)) (h : createStep last r place segment = .ok (r₁, place₁)) :
    ∃ children₁, r₁.get? place₁ = some (.dir children₁) ∧
      ∀ r₂, (∃ children₂, r₂.get? place₁ = some (.dir children₂)) →
        createStep last r₂ place segment = .ok (r₂, place₁) := by
  simp only [createStep] at h ⊢
  split at h
  · cases h
    obtain ⟨children', hd'⟩ := dir_dropLast hd
    exact ⟨children', hd', fun _ _ => rfl⟩
  · cases h
    exact ⟨children, hd, fun _ _ => rfl⟩
  · split at h
    · rename_i found hg
      cases h
      refine ⟨found, hg, ?_⟩
      rintro r₂ ⟨children₂, hd₂⟩
      simp [hd₂]
    · cases h
    · split at h
      · cases h
      · cases h
        refine ⟨[], Node.get?_set_self _ hd, ?_⟩
        rintro r₂ ⟨children₂, hd₂⟩
        simp [hd₂]

theorem createAll_again {r' r'' : Node} {segments : List Text} (hd : r.get? place = some (.dir children))
    (h : createAll r place segments = .ok r') (hk : Node.Kept changed r' r'') :
    createAll r'' place segments = .ok r'' := by
  induction segments generalizing r place children with
  | nil => rfl
  | cons s rest ih =>
    obtain ⟨⟨r₁, place₁⟩, hs, hrest⟩ := of_bind_ok h
    obtain ⟨children₁, hd₁, hagain⟩ := createStep_again hd (of_mapError_ok hs)
    -- the directory that the step leads to is still there after the other steps
    obtain ⟨children', hd'⟩ := (makesDirs_createAll (.inl hrest)).kept.dirs place₁ children₁ hd₁
    rw [createAll, hagain r'' (hk.dirs place₁ children' hd')]
    exact ih hd₁ hrest

theorem createDirs_again (h : t.createDirs p = .ok t₁) (hk : Kept changed t₁ u)
    (hroot : p.isAbsolute = true → ∃ children, t.root.get? [] = some (.dir children))
    (hcwd : p.isAbsolute = false → p.text ≠ [] →
      ∃ children, t.root.get? (namesOf t.cwd) = some (.dir children)) :
    u.createDirs p = .ok u := by
  obtain ⟨e, hrun⟩ | ⟨-, hrun⟩ | ⟨start, body, hstart, hrun⟩ := createDirs_cases p
  · rw [hrun] at h
    cases h
  · exact hrun u
  · obtain ⟨children, hd⟩ : ∃ children, t.root.get? (start t.cwd) = some (.dir children) := by
      rcases hstart with ⟨hbody, rfl⟩ | ⟨rfl, hne, hhead, rfl⟩
      · exact hroot (by simp [Path.isAbsolute, hbody])
      · exact hcwd (by simp [Path.isAbsolute, hhead]) hne
    rw [(hrun t).2] at h
    cases hall : createAll t.root (start t.cwd) (Path.segments body) with
    | error failure =>
      rw [hall] at h
      cases h
    | ok root =>
      rw [hall] at h
      cases h
      have hstart' : start u.cwd = start t.cwd := congrArg start hk.cwd
      rw [(hrun u).2, hstart', createAll_again hd hall hk.root]

end FileTree

end Runbook
