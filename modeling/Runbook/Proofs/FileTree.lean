import Runbook.FileTree
import Runbook.Proofs.Except
import Runbook.Proofs.PathText

/-!
# Changes of a file tree

A change of one place leaves every other file and every directory where it is. A normal path means the
place with its names, whatever else the tree holds.
-/

open List

namespace Runbook
open Component Runbook.Path

namespace Node

variable {r node new : Node} {n : Text}

/-! ## Places -/

theorem get?_append (r : Node) (a b : Place) : r.get? (a ++ b) = (r.get? a).bind (·.get? b) := by
  induction a generalizing r with
  | nil => cases r <;> rfl
  | cons n rest ih =>
    cases r with
    | file mode contents => rfl
    | dir children =>
      simp only [cons_append, get?]
      cases children.lookup n with
      | none => rfl
      | some child => exact ih child

theorem dir_of_get?_append {a : Place} {b : Place} (h : r.get? (a ++ n :: b) = some node) :
    ∃ children, r.get? a = some (.dir children) := by
  rw [get?_append] at h
  cases ha : r.get? a with
  | none => simp [ha] at h
  | some above =>
    cases above with
    | file mode contents => simp [ha, get?] at h
    | dir children => exact ⟨children, rfl⟩

theorem lookup_setChild (name : Text) (new : Node) (children : List (Text × Node)) (n : Text) :
    (setChild name new children).lookup n = if n = name then some new else children.lookup n := by
  induction children with
  | nil => by_cases h : n = name <;> simp [setChild, lookup_cons, h, beq_eq_false_iff_ne.mpr]
  | cons entry rest ih =>
    obtain ⟨m, old⟩ := entry
    by_cases hm : m = name
    · subst hm
      by_cases h : n = m <;> simp [setChild, lookup_cons, h, beq_eq_false_iff_ne.mpr]
    · by_cases h : n = m
      · subst h
        simp [setChild, hm]
      · simp [setChild, lookup_cons, hm, beq_eq_false_iff_ne.mpr h, ih]

/-! ## Setting a place -/

/-- What stays when the tree changes: the files at places that do not count as changed, and that a place
is a directory. -/
structure Kept (changed : Place → Prop) (r r' : Node) : Prop where
  files : ∀ place, ¬ changed place → ∀ mode contents,
    r'.get? place = some (.file mode contents) ↔ r.get? place = some (.file mode contents)
  dirs : ∀ place children, r.get? place = some (.dir children) →
    ∃ children', r'.get? place = some (.dir children')

theorem Kept.refl (changed : Place → Prop) (r : Node) : Kept changed r r :=
  ⟨fun _ _ _ _ => Iff.rfl, fun _ children h => ⟨children, h⟩⟩

theorem Kept.trans {changed : Place → Prop} {r' r'' : Node} (h : Kept changed r r') (h' : Kept changed r' r'') :
    Kept changed r r'' where
  files place hp mode contents := (h'.files place hp mode contents).trans (h.files place hp mode contents)
  dirs place children hd := by
    obtain ⟨children', hd'⟩ := h.dirs place children hd
    exact h'.dirs place children' hd'

theorem Kept.mono {changed changed' : Place → Prop} {r' : Node} (h : Kept changed r r')
    (hc : ∀ place, changed place → changed' place) : Kept changed' r r' :=
  ⟨fun place hp => h.files place fun hc' => hp (hc place hc'), h.dirs⟩

def IsLeaf : Node → Prop
  | file .. => True
  | dir children => children = []

theorem get?_leaf (h : new.IsLeaf) (n : Text) (rest : Place) : new.get? (n :: rest) = none := by
  cases new with
  | file mode contents => rfl
  | dir children =>
    obtain rfl : children = [] := h
    rfl

theorem get?_nil (r : Node) : r.get? [] = some r := by cases r <;> rfl

theorem get?_cons_eq_some {rest : Place} (h : r.get? (n :: rest) = some node) :
    ∃ children child, r = .dir children ∧ children.lookup n = some child ∧ child.get? rest = some node := by
  cases r with
  | file mode contents => cases h
  | dir children =>
    obtain ⟨child, hl, hc⟩ := Option.bind_eq_some_iff.mp h
    exact ⟨children, child, rfl, hl, hc⟩

section

variable {r new child : Node} {children : List (Text × Node)} {n : Text} {p q rest : Place}

theorem get?_below_of_not_dir (h : ∀ children, r.get? q ≠ some (.dir children)) (n : Text) (rest : Place) :
    r.get? (q ++ n :: rest) = none := by
  rw [Option.eq_none_iff_forall_ne_some]
  intro node hn
  obtain ⟨children, hd⟩ := dir_of_get?_append hn
  exact h children hd

theorem setChild_self (h : children.lookup n = some child) : setChild n child children = children := by
  induction children with
  | nil => cases h
  | cons entry rest ih =>
    obtain ⟨m, old⟩ := entry
    by_cases hm : m = n
    · subst hm
      simp_all [setChild]
    · rw [lookup_cons, beq_eq_false_iff_ne.mpr (Ne.symm hm)] at h
      simp [setChild, hm, ih h]

theorem set_cons (h : children.lookup n = some child) (rest : Place) (new : Node) :
    (dir children).set (n :: rest) new = dir (setChild n (child.set rest new) children) := by
  cases rest with
  | nil => cases child <;> rfl
  | cons next rest => simp [Node.set, h]

theorem exists_dir_set (children : List (Text × Node)) (n : Text) (rest : Place) (new : Node) :
    ∃ children', (dir children).set (n :: rest) new = dir children' := by
  cases rest with
  | nil => exact ⟨_, rfl⟩
  | cons next rest =>
    rw [Node.set]
    split <;> exact ⟨_, rfl⟩

theorem get?_set_of_ne {m : Text} (h : m ≠ n) (r : Node) (p rest : Place) (new : Node) :
    (r.set (n :: rest) new).get? (m :: p) = r.get? (m :: p) := by
  cases r with
  | file mode contents => rw [Node.set]
  | dir children =>
    cases rest with
    | nil => simp [Node.set, get?, lookup_setChild, h]
    | cons next rest =>
      simp only [Node.set]
      split <;> simp [get?, lookup_setChild, h]

/-- At its place and below it, what is set is found. Without a directory to set it in, nothing changes. -/
theorem get?_set_below (r : Node) (q : Place) (new : Node) :
    (∀ rest, (r.set q new).get? (q ++ rest) = new.get? rest) ∨
      r.set q new = r ∧ ∃ a n, q = a ++ [n] ∧ ∀ children, r.get? a ≠ some (.dir children) := by
  fun_induction Node.set r q new with
  | case1 r new => exact .inl fun rest => rfl
  | case2 children name new => exact .inl fun rest => by simp [get?, lookup_setChild]
  | case3 children name next rest new child hl ih =>
    rcases ih with hfound | ⟨hsame, a, n, ha, hdir⟩
    · exact .inl fun more => by simpa [get?, lookup_setChild] using hfound more
    · refine .inr ⟨?_, name :: a, n, by rw [ha, cons_append], by simpa [get?, hl] using hdir⟩
      rw [hsame, setChild_self hl]
  | case4 children name next rest new hl =>
    obtain ⟨a, n, ha⟩ := (eq_nil_or_concat (next :: rest)).resolve_left (cons_ne_nil _ _)
    exact .inr ⟨rfl, name :: a, n, by rw [ha]; simp, by simp [get?, hl]⟩
  | case5 mode contents name rest new =>
    obtain ⟨a, n, ha⟩ := (eq_nil_or_concat (name :: rest)).resolve_left (cons_ne_nil _ _)
    exact .inr ⟨rfl, a, n, by rw [ha]; simp, by cases a <;> simp [get?]⟩

/-- At a place that is neither `q` nor below it stands what stood there, with the new node set in it if `q` is
further down. -/
theorem get?_set_off (r new : Node) (h : ¬ q <+: p) :
    (r.set q new).get? p = r.get? p ∨ ∃ node n rest, q = p ++ n :: rest ∧ r.get? p = some node ∧
      (r.set q new).get? p = some (node.set (n :: rest) new) := by
  induction p generalizing r q with
  | nil =>
    obtain ⟨n, rest, rfl⟩ := exists_cons_of_ne_nil fun hq : q = [] => h (hq ▸ nil_prefix)
    exact .inr ⟨r, n, rest, rfl, get?_nil _, get?_nil _⟩
  | cons m p ih =>
    obtain ⟨n, q, rfl⟩ := exists_cons_of_ne_nil fun hq : q = [] => h (hq ▸ nil_prefix)
    by_cases hm : m = n
    · subst hm
      have hrest : ¬ q <+: p := fun hq => h (cons_prefix_cons.mpr ⟨rfl, hq⟩)
      cases r with
      | file mode contents => exact .inl (by rw [Node.set])
      | dir children =>
        cases hl : children.lookup m with
        | none =>
          obtain ⟨next, q, rfl⟩ := exists_cons_of_ne_nil fun hq : q = [] => hrest (hq ▸ nil_prefix)
          exact .inl (by simp [Node.set, hl])
        | some child =>
          have hget : ∀ more, (dir children).get? (m :: more) = child.get? more := by simp [get?, hl]
          rw [set_cons hl, hget]
          simpa [get?, lookup_setChild] using ih child hrest
    · exact .inl (get?_set_of_ne hm r p q new)

theorem shape_set_off (r new : Node) (h : ¬ q <+: p) :
    (∀ mode contents, (r.set q new).get? p = some (.file mode contents) ↔
      r.get? p = some (.file mode contents)) ∧
    ((∃ children, (r.set q new).get? p = some (.dir children)) ↔
      ∃ children, r.get? p = some (.dir children)) := by
  rcases get?_set_off r new h with he | ⟨node, n, rest, -, hn, he⟩
  · simp [he]
  · rw [he, hn]
    cases node with
    | file mode contents => simp [Node.set]
    | dir children =>
      obtain ⟨children', hd⟩ := exists_dir_set children n rest new
      simp [hd]

theorem get?_set_self (n : Text) (h : r.get? p = some (.dir children)) :
    (r.set (p ++ [n]) new).get? (p ++ [n]) = some new := by
  rcases get?_set_below r (p ++ [n]) new with hfound | ⟨-, a, m, ha, hdir⟩
  · simpa [get?_nil] using hfound []
  · obtain ⟨rfl, -⟩ := append_inj' ha rfl
    exact absurd h (hdir children)

theorem get?_set_self_or (r new : Node) (q : Place) :
    (r.set q new).get? q = some new ∨ (r.set q new).get? q = none := by
  rcases get?_set_below r q new with hfound | ⟨hsame, a, n, rfl, hdir⟩
  · exact .inl (by simpa [get?_nil] using hfound [])
  · exact .inr (by rw [hsame, get?_below_of_not_dir hdir])

theorem get?_set {node : Node} (h : r.get? q = some node) (new : Node) : (r.set q new).get? q = some new := by
  rcases get?_set_below r q new with hfound | ⟨-, a, n, rfl, hdir⟩
  · simpa [get?_nil] using hfound []
  · rw [get?_below_of_not_dir hdir] at h
    cases h

theorem kept_set (hq : ∀ children, r.get? q ≠ some (.dir children)) (hnew : new.IsLeaf) :
    Kept (· = q) r (r.set q new) := by
  rcases get?_set_below r q new with hfound | ⟨hsame, -⟩
  · constructor
    · intro place hp mode contents
      by_cases hbelow : q <+: place
      -- nothing is below a leaf, and nothing was below a place that is no directory
      · obtain ⟨rest, rfl⟩ := hbelow
        obtain ⟨n, rest, rfl⟩ := exists_cons_of_ne_nil fun hr : rest = [] => hp (by simp [hr])
        rw [hfound, get?_leaf hnew, get?_below_of_not_dir hq]
      · exact (shape_set_off r new hbelow).1 mode contents
    · intro place children hd
      refine (shape_set_off r new ?_).2.mpr ⟨children, hd⟩
      rintro ⟨rest, rfl⟩
      cases rest with
      | nil => exact hq children (by simpa using hd)
      | cons n rest => simp [get?_below_of_not_dir hq] at hd
  · rw [hsame]
    exact .refl _ _

end

theorem kept_set_dir {q : Place} (h : r.get? q = none) : Kept (fun _ => False) r (r.set q (.dir [])) := by
  have hk : Kept (· = q) r (r.set q (.dir [])) := kept_set (by simp [h]) rfl
  refine ⟨fun place _ mode contents => ?_, hk.dirs⟩
  by_cases hp : place = q
  · subst hp
    rw [h]
    rcases get?_set_self_or r (.dir []) place with hs | hs <;> simp [hs]
  · exact hk.files place hp mode contents

/-! ## Listing -/

theorem descendantsOf_of_lookup {children : List (Text × Node)} {child : Node} (place : Place)
    (h : children.lookup n = some child) :
    (place ++ [n], child) ∈ descendantsOf place children ∧
      descendants (place ++ [n]) child ⊆ descendantsOf place children := by
  induction children with
  | nil => cases h
  | cons entry rest ih =>
    obtain ⟨name, node⟩ := entry
    rw [descendantsOf]
    rw [lookup_cons] at h
    split at h
    · rename_i hn
      obtain rfl := eq_of_beq hn
      cases h
      simp
    · obtain ⟨hmem, hsub⟩ := ih h
      exact ⟨mem_append_right _ hmem, List.Subset.trans hsub (subset_append_right _ _)⟩

theorem mem_descendants {names : Place} (place : Place) (hne : names ≠ []) (h : r.get? names = some node) :
    (place ++ names, node) ∈ r.descendants place := by
  induction names generalizing r place with
  | nil => exact absurd rfl hne
  | cons n rest ih =>
    obtain ⟨children, child, rfl, hl, hc⟩ := get?_cons_eq_some h
    obtain ⟨hmem, hsub⟩ := descendantsOf_of_lookup place hl
    rw [descendants]
    by_cases hrest : rest = []
    · subst hrest
      obtain rfl : child = node := by cases child <;> cases hc <;> rfl
      exact hmem
    · rw [← singleton_append, ← List.append_assoc]
      exact hsub (ih (place ++ [n]) hrest hc)

/-- The places at and below a node, with which of them are directories. -/
def kinds (place : Place) (node : Node) : List (Place × Bool) :=
  ((place, node) :: node.descendants place).map fun entry => (entry.1, entry.2.isDir)

def kindsOf (place : Place) (children : List (Text × Node)) : List (Place × Bool) :=
  (descendantsOf place children).map fun entry => (entry.1, entry.2.isDir)

theorem kinds_file (place : Place) (mode : Nat) (contents : Bytes) :
    kinds place (file mode contents) = [(place, false)] := rfl

theorem kinds_dir (place : Place) (children : List (Text × Node)) :
    kinds place (dir children) = (place, true) :: kindsOf place children := rfl

theorem kindsOf_cons (place : Place) (name : Text) (node : Node) (rest : List (Text × Node)) :
    kindsOf place ((name, node) :: rest) = kinds (place ++ [name]) node ++ kindsOf place rest := by
  simp [kindsOf, kinds, descendantsOf]

theorem kinds_leaf (h : new.IsLeaf) (place : Place) : kinds place new = [(place, new.isDir)] := by
  cases new with
  | file mode contents => rfl
  | dir children =>
    obtain rfl : children = [] := h
    rfl

/-- Setting a child changes one stretch of the list, which is empty before if the child is new. -/
theorem kindsOf_setChild (place : Place) (name : Text) (children : List (Text × Node)) :
    ∃ before after,
      kindsOf place children = before ++ ((children.lookup name).elim [] (kinds (place ++ [name])) ++ after) ∧
      ∀ new, kindsOf place (setChild name new children) = before ++ (kinds (place ++ [name]) new ++ after) := by
  induction children with
  | nil => exact ⟨[], [], rfl, fun new => by simp [setChild, kindsOf, kinds, descendantsOf]⟩
  | cons entry rest ih =>
    obtain ⟨n, old⟩ := entry
    by_cases hn : n = name
    · subst hn
      exact ⟨[], kindsOf place rest, by simp [kindsOf_cons], fun new => by simp [setChild, kindsOf_cons]⟩
    · obtain ⟨before, after, hrest, hset⟩ := ih
      have hl : List.lookup name ((n, old) :: rest) = rest.lookup name := by
        rw [lookup_cons, beq_eq_false_iff_ne.mpr (Ne.symm hn)]
      refine ⟨kinds (place ++ [n]) old ++ before, after, ?_, fun new => ?_⟩
      · rw [kindsOf_cons, hrest, hl, List.append_assoc]
      · rw [setChild, if_neg hn, kindsOf_cons, hset, List.append_assoc]

theorem isDir_set {rest : Place} : (r.set (n :: rest) new).isDir = r.isDir := by
  cases r with
  | file mode contents => rw [Node.set]
  | dir children =>
    obtain ⟨children', hd⟩ := exists_dir_set children n rest new
    rw [hd]
    rfl

/-- What is set at the place is new there, or a file that takes the place of a file. -/
def Sets (r : Node) (q : Place) (new : Node) : Prop :=
  q ≠ [] ∧ new.IsLeaf ∧ ∀ old, r.get? q = some old → old.isDir = false ∧ new.isDir = false

section

variable {keep : Place × Bool → Bool} {r r' r'' new : Node} {q : Place}

theorem Sets.under {place : Place} {node : Node} (hn : r.get? place = some node) {n : Text} {rest : Place}
    (h : Sets r (place ++ n :: rest) new) : Sets node (n :: rest) new := by
  refine ⟨by simp, h.2.1, fun old ho => h.2.2 old ?_⟩
  rwa [get?_append, hn, Option.bind_some]

theorem kinds_eq_of_file {old : Node} (place : Place) (ho : old.isDir = false) (hn : new.isDir = false) :
    kinds place new = kinds place old := by
  cases old with
  | dir children => cases ho
  | file mode contents =>
    cases new with
    | dir children => cases hn
    | file mode' contents' => rfl

/-- A list that leaves out what is set at the place does not change. -/
theorem filter_kinds_set (h : Sets r q new) {place : Place} (hkeep : keep (place ++ q, new.isDir) = false) :
    (kinds place (r.set q new)).filter keep = (kinds place r).filter keep := by
  fun_induction Node.set r q new generalizing place with
  | case1 r new => exact absurd rfl h.1
  | case2 children name new =>
    obtain ⟨before, after, hall, hset⟩ := kindsOf_setChild place name children
    rw [kinds_dir, kinds_dir, hall, hset]
    cases hl : children.lookup name with
    | none => simp [filter_cons, kinds_leaf h.2.1, hkeep]
    | some old =>
      obtain ⟨ho, hn⟩ := h.2.2 old (by simp [get?, hl])
      rw [Option.elim_some, kinds_eq_of_file _ ho hn]
  | case3 children name next rest new child hl ih =>
    obtain ⟨before, after, hall, hset⟩ := kindsOf_setChild place name children
    have hget : (dir children).get? [name] = some child := by simp [get?, hl]
    have hchild : Sets child (next :: rest) new := Sets.under hget h
    have hsame : (kinds (place ++ [name]) (child.set (next :: rest) new)).filter keep =
        (kinds (place ++ [name]) child).filter keep := ih hchild (by simpa using hkeep)
    rw [kinds_dir, kinds_dir, hall, hset, hl, Option.elim_some]
    simp only [filter_cons, filter_append, hsame]
  | case4 children name next rest new hl => rfl
  | case5 mode contents name rest new => rfl

/-- Where something stood there is still the same kind of thing, and the same below it but for what has been
added: every list that leaves that out is the same. -/
def Extends (added : Place → Bool → Prop) (r r' : Node) : Prop :=
  ∀ place node, r.get? place = some node → ∃ node', r'.get? place = some node' ∧ node'.isDir = node.isDir ∧
    ∀ keep : Place × Bool → Bool,
      (∀ n rest isDir, added (place ++ n :: rest) isDir → keep (n :: rest, isDir) = false) →
        (kinds [] node').filter keep = (kinds [] node).filter keep

variable {added added' : Place → Bool → Prop}

theorem Extends.refl (added : Place → Bool → Prop) (r : Node) : Extends added r r :=
  fun _ node h => ⟨node, h, rfl, fun _ _ => rfl⟩

theorem Extends.trans (h : Extends added r r') (h' : Extends added r' r'') : Extends added r r'' := by
  intro place node hn
  obtain ⟨node', hn', hd', hk'⟩ := h place node hn
  obtain ⟨node'', hn'', hd'', hk''⟩ := h' place node' hn'
  exact ⟨node'', hn'', hd''.trans hd', fun keep hkeep => (hk'' keep hkeep).trans (hk' keep hkeep)⟩

theorem Extends.mono (h : Extends added r r') (ha : ∀ place isDir, added place isDir → added' place isDir) :
    Extends added' r r' := by
  intro place node hn
  obtain ⟨node', hn', hd, hk⟩ := h place node hn
  exact ⟨node', hn', hd, fun keep hkeep => hk keep fun n rest isDir hadded => hkeep n rest isDir (ha _ _ hadded)⟩

theorem extends_set (h : Sets r q new) (ha : added q new.isDir) : Extends added r (r.set q new) := by
  intro place node hn
  by_cases hbelow : q <+: place
  · obtain ⟨rest, rfl⟩ := hbelow
    cases rest with
    | nil =>
      rw [append_nil] at hn ⊢
      obtain ⟨ho, hd⟩ := h.2.2 node hn
      exact ⟨new, get?_set hn new, hd.trans ho.symm, fun keep _ => by rw [kinds_eq_of_file _ ho hd]⟩
    | cons n rest =>
      -- nothing stood below a file
      obtain ⟨children, hq⟩ := dir_of_get?_append hn
      cases (h.2.2 _ hq).1
  · rcases get?_set_off r new hbelow with he | ⟨node', n, rest, rfl, hn', he⟩
    · exact ⟨node, he.trans hn, rfl, fun _ _ => rfl⟩
    · cases hn.symm.trans hn'
      exact ⟨_, he, isDir_set, fun keep hkeep => filter_kinds_set (h.under hn) (hkeep n rest _ ha)⟩

end

/-! ## Making directories -/

/-- From one tree to the other, empty directories have been made at some of the places. -/
inductive MakesDirs (on : Place → Prop) : Node → Node → Prop
  | nil (r : Node) : MakesDirs on r r
  | cons {r r' : Node} {q : Place} (hq : on q) (hnew : r.get? q = none)
      (rest : MakesDirs on (r.set q (.dir [])) r') : MakesDirs on r r'

section

variable {on on' : Place → Prop} {r r' : Node}

theorem MakesDirs.mono (h : MakesDirs on r r') (ho : ∀ place, on place → on' place) : MakesDirs on' r r' := by
  induction h with
  | nil r => exact .nil r
  | cons hq hnew _ ih => exact .cons (ho _ hq) hnew ih

theorem MakesDirs.kept (h : MakesDirs on r r') : Kept (fun _ => False) r r' := by
  induction h with
  | nil r => exact .refl _ r
  | cons _ hnew _ ih => exact (kept_set_dir hnew).trans ih

theorem MakesDirs.extends (h : MakesDirs on r r') :
    Extends (fun place isDir => isDir = true ∧ on place) r r' := by
  induction h with
  | nil r => exact .refl _ r
  | @cons r _ q hq hnew _ ih =>
    have hne : q ≠ [] := by
      rintro rfl
      cases r <;> cases hnew
    have hsets : Sets r q (dir []) := ⟨hne, rfl, fun old ho => by simp [hnew] at ho⟩
    exact (extends_set hsets ⟨rfl, hq⟩).trans ih

end

end Node

namespace FileTree

/-- What stays when a tree changes, with the current directory. -/
structure Kept (changed : Place → Prop) (t t' : FileTree) : Prop where
  cwd : t'.cwd = t.cwd
  root : Node.Kept changed t.root t'.root

section

variable {r r' node : Node} {next start : Place} {contents : Bytes}
variable {changed : Place → Prop} {t t' t'' : FileTree} {p : Path} {place : Place}

theorem Kept.refl (changed : Place → Prop) (t : FileTree) : Kept changed t t := ⟨rfl, .refl _ _⟩

theorem Kept.trans (h : Kept changed t t') (h' : Kept changed t' t'') : Kept changed t t'' :=
  ⟨h'.cwd.trans h.cwd, h.root.trans h'.root⟩

theorem Kept.mono {changed' : Place → Prop} (h : Kept changed t t')
    (hc : ∀ place, changed place → changed' place) : Kept changed' t t' :=
  ⟨h.cwd, h.root.mono hc⟩

/-! ## Walking -/

theorem walkStep_mono (h : Node.Kept changed r r') {segment : Text} (hs : walkStep r place segment = .ok next) :
    walkStep r' place segment = .ok next := by
  simp only [walkStep] at hs ⊢
  split at hs
  · cases hs
  · cases hs
  · rename_i children hd
    obtain ⟨children', hd'⟩ := h.dirs place children hd
    rw [hd']
    exact hs

theorem walk_mono (h : Node.Kept changed r r') {segments : List Text} (hw : walk r start segments = .ok place) :
    walk r' start segments = .ok place := by
  induction segments generalizing start with
  | nil => exact hw
  | cons s rest ih =>
    obtain ⟨next, hs, hr⟩ := of_bind_ok hw
    have hs' := walkStep_mono h hs
    have hr' := ih hr
    rw [walk, foldlM_cons, hs']
    exact hr'

/-- A path means the place where a walk along its segments ends, from the root or from the current
directory. -/
theorem locate_iff : t.locate p = .ok place ↔ refusal? p = none ∧
    ((∃ body, p.text = '/' :: body ∧ walk t.root [] (segments body) = .ok place) ∨
      (p.text ≠ [] ∧ p.text.head? ≠ some '/' ∧
        walk t.root (namesOf t.cwd) (segments p.text) = .ok place)) := by
  obtain ⟨text⟩ := p
  cases hr : refusal? ⟨text⟩ with
  | some e => simp [FileTree.locate, hr]
  | none =>
    cases text with
    | nil => simp [FileTree.locate, hr]
    | cons c rest =>
      by_cases hc : c = '/'
      · subst hc
        simp [FileTree.locate, hr]
      · have hl : t.locate ⟨c :: rest⟩ = walk t.root (namesOf t.cwd) (segments (c :: rest)) := by
          simp only [FileTree.locate, hr]
          split
          · contradiction
          · contradiction
          · simp_all
          · simp_all
        simp [hl, hc]

theorem Kept.locate (h : Kept changed t t') (hl : t.locate p = .ok place) : t'.locate p = .ok place := by
  obtain ⟨hr, hw⟩ := locate_iff.mp hl
  refine locate_iff.mpr ⟨hr, ?_⟩
  rw [h.cwd]
  rcases hw with ⟨body, ht, hw⟩ | ⟨hne, hs, hw⟩
  · exact Or.inl ⟨body, ht, walk_mono h.root hw⟩
  · exact Or.inr ⟨hne, hs, walk_mono h.root hw⟩

theorem walkStep_name {n : Text} (hn : IsName n) :
    walkStep r place n = .ok next ↔
      (∃ children, r.get? place = some (.dir children)) ∧ n.byteLength ≤ nameLimit ∧
        next = place ++ [n] := by
  have hs : ofSegment n = some (.name n) := ofSegment_text (c := .name n) hn
  cases hg : r.get? place with
  | none => simp [walkStep, hg]
  | some node =>
    cases node with
    | file mode contents => simp [walkStep, hg]
    | dir children =>
      simp only [walkStep, hg, hs, Component.text]
      by_cases hl : nameLimit < n.byteLength
      · simp [hl, Nat.not_le.mpr hl]
      · simp [hl, Nat.le_of_not_lt hl, eq_comm]

theorem walkStep_up :
    walkStep r place up.text = .ok next ↔
      (∃ children, r.get? place = some (.dir children)) ∧ next = place.dropLast := by
  have hs : ofSegment up.text = some .up := rfl
  cases hg : r.get? place with
  | none => simp [walkStep, hg]
  | some node =>
    cases node with
    | file mode contents => simp [walkStep, hg]
    | dir children => simp [walkStep, hg, hs, eq_comm]

theorem walk_names {names : List Text} (hn : ∀ n ∈ names, IsName n) (h : walk r start names = .ok place) :
    place = start ++ names ∧ (∀ n ∈ names, n.byteLength ≤ nameLimit) ∧
      (names ≠ [] → ∃ children, r.get? place.dropLast = some (.dir children)) := by
  induction names generalizing start with
  | nil =>
    cases h
    simp
  | cons n rest ih =>
    obtain ⟨next, hs, hr⟩ := of_bind_ok h
    obtain ⟨hdir, hlimit, rfl⟩ := (walkStep_name (hn n (by simp))).mp hs
    obtain ⟨rfl, hlimits, hdirs⟩ := ih (fun m hm => hn m (by simp [hm])) hr
    refine ⟨by simp, by simpa [hlimit] using hlimits, fun _ => ?_⟩
    by_cases hrest : rest = []
    · subst hrest
      simpa using hdir
    · exact hdirs hrest

theorem walk_of_get? {names : List Text} (hn : ∀ n ∈ names, IsName n)
    (hl : ∀ n ∈ names, n.byteLength ≤ nameLimit) (h : r.get? (start ++ names) = some node) :
    walk r start names = .ok (start ++ names) := by
  induction names generalizing start with
  | nil =>
    rw [append_nil]
    rfl
  | cons n rest ih =>
    have hstep : walkStep r start n = .ok (start ++ [n]) :=
      (walkStep_name (hn n (by simp))).mpr ⟨Node.dir_of_get?_append h, hl n (by simp), rfl⟩
    have hrest : walk r (start ++ [n]) rest = .ok (start ++ [n] ++ rest) :=
      ih (fun m hm => hn m (by simp [hm])) (fun m hm => hl m (by simp [hm])) (by simpa using h)
    rw [List.append_assoc] at hrest
    rw [walk, foldlM_cons, hstep]
    exact hrest

/-! ## Reading -/

theorem stat_iff : t.stat p = .ok node ↔ ∃ place, t.locate p = .ok place ∧ t.root.get? place = some node := by
  constructor
  · intro h
    obtain ⟨place, hl, h⟩ := of_bind_ok h
    split at h
    · rename_i hg
      cases h
      exact ⟨place, hl, hg⟩
    · cases h
  · rintro ⟨place, hl, hg⟩
    simp [stat, hl, hg, bind, Except.bind]

theorem readBytes_iff_stat : t.readBytes p = .ok contents ↔ ∃ mode, t.stat p = .ok (.file mode contents) := by
  constructor
  · intro h
    obtain ⟨node, hs, h⟩ := of_bind_ok h
    cases node with
    | file mode found =>
      cases h
      exact ⟨mode, hs⟩
    | dir children => cases h
  · rintro ⟨mode, hs⟩
    simp only [readBytes, hs]
    rfl

theorem readBytes_iff :
    t.readBytes p = .ok contents ↔
      ∃ place mode, t.locate p = .ok place ∧ t.root.get? place = some (.file mode contents) := by
  rw [readBytes_iff_stat]
  constructor
  · rintro ⟨mode, hs⟩
    obtain ⟨place, hl, hg⟩ := stat_iff.mp hs
    exact ⟨place, mode, hl, hg⟩
  · rintro ⟨place, mode, hl, hg⟩
    exact ⟨mode, stat_iff.mpr ⟨place, hl, hg⟩⟩

theorem isFile_iff : t.isFile p = true ↔ ∃ contents, t.readBytes p = .ok contents := by
  simp only [readBytes_iff_stat, isFile]
  cases hs : t.stat p with
  | error e => simp [Except.toOption]
  | ok node =>
    cases node with
    | file mode contents => simp [Except.toOption, Node.isFile]
    | dir children => simp [Except.toOption, Node.isFile]

theorem Kept.stat_isDir (h : Kept changed t t') (hs : t.stat p = .ok node) (hd : node.isDir = true) :
    ∃ node', t'.stat p = .ok node' ∧ node'.isDir = true := by
  obtain ⟨place, hl, hg⟩ := stat_iff.mp hs
  cases node with
  | file mode contents => cases hd
  | dir children =>
    obtain ⟨children', hg'⟩ := h.root.dirs place children hg
    exact ⟨_, stat_iff.mpr ⟨place, h.locate hl, hg'⟩, rfl⟩

theorem Kept.readBytes (h : Kept changed t t') (hl : t.locate p = .ok place) (hc : ¬ changed place)
    (hr : t.readBytes p = .ok contents) : t'.readBytes p = .ok contents := by
  obtain ⟨place', mode, hl', hg⟩ := readBytes_iff.mp hr
  rw [hl] at hl'
  cases hl'
  exact readBytes_iff.mpr ⟨place, mode, h.locate hl, (h.root.files place hc mode contents).mpr hg⟩

/-! ## Writing -/

theorem writeBytes_spec (h : t.writeBytes p contents = .ok t') :
    ∃ place, t.locate p = .ok place ∧ Kept (· = place) t t' ∧
      ∀ a n children, place = a ++ [n] → t.root.get? a = some (.dir children) →
        t'.readBytes p = .ok contents := by
  obtain ⟨place, hl, h⟩ := of_bind_ok h
  have hset : ∀ mode, (∀ old, t.root.get? place ≠ some (.dir old)) →
      t' = { t with root := t.root.set place (.file mode contents) } → Kept (· = place) t t' ∧
        ∀ a n children, place = a ++ [n] → t.root.get? a = some (.dir children) →
          t'.readBytes p = .ok contents := by
    rintro mode hold rfl
    have hk : Kept (· = place) t { t with root := t.root.set place (.file mode contents) } :=
      ⟨rfl, Node.kept_set hold trivial⟩
    refine ⟨hk, ?_⟩
    rintro a n children rfl ha
    exact readBytes_iff.mpr ⟨_, mode, hk.locate hl, Node.get?_set_self n ha⟩
  split at h
  · cases h
  · rename_i mode old hg
    cases h
    exact ⟨place, hl, hset mode (by simp [hg]) rfl⟩
  · rename_i hg
    cases h
    exact ⟨place, hl, hset Node.fileMode (by simp [hg]) rfl⟩

/-- The place that a segment leads to, whatever stands there. -/
def nextPlace (place : Place) (segment : Text) : Place :=
  match ofSegment segment with
  | some .up => place.dropLast
  | some c => place ++ [c.text]
  | none => place

theorem createStep_cases {last : Bool} {place' : Place} {segment : Text}
    (h : createStep last r place segment = .ok (r', place')) :
    place' = nextPlace place segment ∧ (r' = r ∨ r.get? place' = none ∧ r' = r.set place' (.dir [])) := by
  cases hc : ofSegment segment with
  | none =>
    simp only [createStep, nextPlace, hc] at h ⊢
    cases h
    exact ⟨rfl, .inl rfl⟩
  | some c =>
    by_cases hup : c = .up
    · subst hup
      simp only [createStep, nextPlace, hc] at h ⊢
      cases h
      exact ⟨rfl, .inl rfl⟩
    · simp only [createStep, nextPlace, hc] at h ⊢
      split at h
      · cases h
        exact ⟨rfl, .inl rfl⟩
      · cases h
      · rename_i hg
        split at h
        · cases h
        · cases h
          exact ⟨rfl, .inr ⟨hg, rfl⟩⟩

/-- Whether it succeeds or not, what has been made lies on the way along the segments. -/
theorem makesDirs_createAll {segments : List Text}
    (h : createAll r place segments = .ok r' ∨ ∃ e, createAll r place segments = .error (e, r')) :
    Node.MakesDirs (· ∈ segments.scanl nextPlace place) r r' := by
  induction segments generalizing place r with
  | nil =>
    rcases h with h | ⟨e, h⟩
    · cases h
      exact .nil _
    · cases h
  | cons s rest ih =>
    rw [createAll] at h
    cases hs : createStep rest.isEmpty r place s with
    | error e =>
      rw [hs] at h
      rcases h with h | ⟨e', h⟩
      · cases h
      · cases h
        exact .nil _
    | ok next =>
      obtain ⟨r₁, place₁⟩ := next
      rw [hs] at h
      obtain ⟨rfl, hr₁⟩ := createStep_cases hs
      have hrest : Node.MakesDirs (· ∈ (s :: rest).scanl nextPlace place) r₁ r' :=
        (ih h).mono fun q hq => by simp [scanl_cons, hq]
      rcases hr₁ with rfl | ⟨hnew, rfl⟩
      · exact hrest
      · exact .cons (by cases rest <;> simp [scanl_cons]) hnew hrest

/-- The places on the way along the segments of the path, from the root or from the current directory. -/
def wayTo (cwd p : Path) : List Place :=
  match p.text with
  | '/' :: body => (segments body).scanl nextPlace []
  | body => (segments body).scanl nextPlace (namesOf cwd)

/-- Directories are made along the segments of the path, from the root or from the current directory. -/
theorem createDirs_cases (p : Path) :
    (∃ e, ∀ t : FileTree, t.createDirs p = .error (e, t)) ∨
      (p.text = [] ∧ ∀ t : FileTree, t.createDirs p = .ok t) ∨
      ∃ (start : Path → Place) (body : Text), ((p.text = '/' :: body ∧ start = fun _ => []) ∨
          (p.text = body ∧ body ≠ [] ∧ body.head? ≠ some '/' ∧ start = namesOf)) ∧
        ∀ t : FileTree, wayTo t.cwd p = (segments body).scanl nextPlace (start t.cwd) ∧
          t.createDirs p = match createAll t.root (start t.cwd) (segments body) with
            | .ok root => .ok { t with root := root }
            | .error (e, root) => .error (e, { t with root := root }) := by
  obtain ⟨text⟩ := p
  cases hr : refusal? ⟨text⟩ with
  | some e => exact .inl ⟨e, fun t => by simp [createDirs, hr]⟩
  | none =>
    right
    cases text with
    | nil => exact .inl ⟨rfl, fun t => by simp [createDirs, hr]⟩
    | cons c rest =>
      right
      by_cases hc : c = '/'
      · subst hc
        refine ⟨_, rest, .inl ⟨rfl, rfl⟩, fun t => ⟨rfl, ?_⟩⟩
        simp only [createDirs, hr]
        cases createAll t.root [] (segments rest) <;> rfl
      · refine ⟨_, c :: rest, .inr ⟨rfl, by simp, by simp [hc], rfl⟩, fun t => ⟨?_, ?_⟩⟩
        · simp [wayTo, hc]
        · simp only [createDirs, hr]
          split
          · contradiction
          · contradiction
          · simp_all
          · cases createAll t.root (namesOf t.cwd) (segments (c :: rest)) <;> rfl

theorem makesDirs_createDirs (h : t.createDirs p = .ok t' ∨ ∃ e, t.createDirs p = .error (e, t')) :
    t'.cwd = t.cwd ∧ Node.MakesDirs (· ∈ wayTo t.cwd p) t.root t'.root := by
  obtain ⟨e, hrun⟩ | ⟨-, hrun⟩ | ⟨start, body, -, hrun⟩ := createDirs_cases p
  · rw [hrun] at h
    rcases h with h | ⟨e', h⟩ <;> cases h
    exact ⟨rfl, .nil _⟩
  · rw [hrun] at h
    rcases h with h | ⟨e', h⟩ <;> cases h
    exact ⟨rfl, .nil _⟩
  · obtain ⟨hway, hrun⟩ := hrun t
    rw [hway]
    cases hall : createAll t.root (start t.cwd) (segments body) with
    | ok root =>
      rw [hrun, hall] at h
      rcases h with h | ⟨e, h⟩ <;> cases h
      exact ⟨rfl, makesDirs_createAll (.inl hall)⟩
    | error failure =>
      obtain ⟨e, root⟩ := failure
      rw [hrun, hall] at h
      rcases h with h | ⟨e', h⟩ <;> cases h
      exact ⟨rfl, makesDirs_createAll (.inr ⟨e, hall⟩)⟩

theorem createDirs_kept (h : t.createDirs p = .ok t' ∨ ∃ e, t.createDirs p = .error (e, t')) :
    Kept (fun _ => False) t t' := by
  obtain ⟨hcwd, hdirs⟩ := makesDirs_createDirs h
  exact ⟨hcwd, hdirs.kept⟩

theorem createDirs_spec (h : t.createDirs p = .ok t') : Kept (fun _ => False) t t' := createDirs_kept (.inl h)

/-! ## Normal paths -/

section

variable {above : Bool} {names : List Text}

theorem namesOf_anchored (h : ∀ n ∈ names, IsName n) :
    namesOf (anchored above names) = names := by
  rw [namesOf, components_anchored h, anchor]
  cases above <;> simp

theorem anchored_text (hn : ∀ n ∈ names, IsName n) :
    (anchored above names).text =
      '/' :: partsText ((if above then [.up] else []) ++ names.map .name) :=
  (text_ofParts (anchored_proper hn) : (ofParts true _).text = _)

theorem segments_names (hn : ∀ n ∈ names, IsName n) (hne : names ≠ []) :
    segments (partsText (names.map .name)) = names := by
  rw [segments_partsText (proper_names hn) (by simpa using hne), map_map]
  exact map_id names

theorem segments_up_names (hn : ∀ n ∈ names, IsName n) :
    segments (partsText (.up :: names.map .name)) = up.text :: names := by
  have hproper : ∀ c ∈ up :: names.map .name, c.Proper := by
    intro c hc
    rcases mem_cons.mp hc with rfl | hc
    · trivial
    · exact proper_names hn c hc
  rw [segments_partsText hproper (by simp), map_cons, map_map]
  exact congrArg (up.text :: ·) (map_id names)

theorem place_of_locate_anchored (hn : ∀ n ∈ names, IsName n)
    (h : t.locate (anchored above names) = .ok place) :
    place = names ∧ (∀ n ∈ names, n.byteLength ≤ nameLimit) ∧
      ∃ children, t.root.get? place.dropLast = some (.dir children) := by
  obtain ⟨-, ⟨body, hbody, hw⟩ | ⟨-, hhead, -⟩⟩ := locate_iff.mp h
  · rw [anchored_text hn] at hbody
    cases hbody
    cases above with
    | true =>
      simp only [↓reduceIte, singleton_append, segments_up_names hn] at hw
      obtain ⟨next, hs, hw⟩ := of_bind_ok hw
      obtain ⟨hroot, rfl⟩ := walkStep_up.mp hs
      obtain ⟨hp, hlimits, hdir⟩ := walk_names hn hw
      refine ⟨by simpa using hp, hlimits, ?_⟩
      by_cases hne : names = []
      · subst hne
        rw [hp]
        exact hroot
      · exact hdir hne
    | false =>
      simp only [Bool.false_eq_true, ↓reduceIte, nil_append] at hw
      by_cases hne : names = []
      · subst hne
        obtain ⟨next, hs, hw⟩ := of_bind_ok hw
        cases hw
        simp only [walkStep] at hs
        split at hs
        · cases hs
        · cases hs
        · rename_i children hroot
          cases hs
          exact ⟨rfl, by simp, children, hroot⟩
      · rw [segments_names hn hne] at hw
        obtain ⟨hp, hlimits, hdir⟩ := walk_names hn hw
        exact ⟨by simpa using hp, hlimits, hdir hne⟩
  · rw [anchored_text hn] at hhead
    exact absurd rfl hhead

theorem locate_anchored (hn : ∀ n ∈ names, IsName n) (hne : names ≠ [])
    (hr : refusal? (anchored above names) = none) (hl : ∀ n ∈ names, n.byteLength ≤ nameLimit)
    {node : Node} (h : t.root.get? names = some node) :
    t.locate (anchored above names) = .ok names := by
  refine locate_iff.mpr ⟨hr, Or.inl ⟨_, anchored_text hn, ?_⟩⟩
  have hw : walk t.root [] names = .ok names := walk_of_get? hn hl h
  cases above with
  | true =>
    obtain ⟨n, rest, rfl⟩ := exists_cons_of_ne_nil hne
    have hup : walkStep t.root [] up.text = .ok [] :=
      walkStep_up.mpr ⟨Node.dir_of_get?_append (a := []) h, rfl⟩
    simp only [↓reduceIte, singleton_append, segments_up_names hn]
    rw [walk, foldlM_cons, hup]
    exact hw
  | false =>
    simp only [Bool.false_eq_true, ↓reduceIte, nil_append, segments_names hn hne]
    exact hw

theorem place_of_locate_names (hn : ∀ n ∈ names, IsName n) (hne : names ≠ [])
    (h : t.locate (ofParts false (names.map .name)) = .ok place) :
    place = namesOf t.cwd ++ names ∧ ∃ children, t.root.get? place.dropLast = some (.dir children) := by
  have htext : (ofParts false (names.map .name)).text = partsText (names.map .name) :=
    text_ofParts (proper_names hn)
  obtain ⟨-, ⟨body, hbody, -⟩ | ⟨-, -, hw⟩⟩ := locate_iff.mp h
  · have hhead := head?_partsText (Component.proper_names hn) (by simpa using hne)
    rw [← htext, hbody] at hhead
    exact absurd rfl hhead
  · rw [htext, segments_names hn hne] at hw
    obtain ⟨hp, -, hd⟩ := walk_names hn hw
    exact ⟨hp, hd hne⟩

theorem readBytes_anchored (hn : ∀ n ∈ names, IsName n) (hne : names ≠ []) {contents : Bytes} :
    t.readBytes (anchored above names) = .ok contents ↔
      refusal? (anchored above names) = none ∧ (∀ n ∈ names, n.byteLength ≤ nameLimit) ∧
        ∃ mode, t.root.get? names = some (.file mode contents) := by
  rw [readBytes_iff]
  constructor
  · rintro ⟨place, mode, hl, hg⟩
    obtain ⟨rfl, hlimits, -⟩ := place_of_locate_anchored hn hl
    exact ⟨(locate_iff.mp hl).1, hlimits, mode, hg⟩
  · rintro ⟨hr, hlimits, mode, hg⟩
    exact ⟨names, mode, locate_anchored hn hne hr hlimits hg, hg⟩

theorem Kept.readBytes_anchored (h : Kept changed t t') (hn : ∀ n ∈ names, IsName n) (hne : names ≠ [])
    (hc : ¬ changed names) {contents : Bytes} :
    t'.readBytes (anchored above names) = .ok contents ↔
      t.readBytes (anchored above names) = .ok contents := by
  rw [FileTree.readBytes_anchored hn hne, FileTree.readBytes_anchored hn hne]
  simp only [h.root.files _ hc]

/-! ## Directories on the way to a normal path -/

theorem nextPlace_name {n : Text} (hn : IsName n) (place : Place) : nextPlace place n = place ++ [n] := by
  have hs : ofSegment n = some (.name n) := ofSegment_text (c := .name n) hn
  simp only [nextPlace, hs, Component.text]

theorem prefix_of_mem_scanl {q : Place} (hn : ∀ n ∈ names, IsName n) (h : q ∈ names.scanl nextPlace place) :
    q <+: place ++ names := by
  induction names generalizing place with
  | nil =>
    rw [scanl_nil, mem_singleton] at h
    simp [h]
  | cons n rest ih =>
    rw [scanl_cons, mem_cons, nextPlace_name (hn n (by simp))] at h
    rcases h with rfl | h
    · exact prefix_append _ _
    · simpa using ih (fun m hm => hn m (by simp [hm])) h

theorem prefix_of_mem_wayTo_anchored {q : Place} {cwd : Path} (hn : ∀ n ∈ names, IsName n)
    (h : q ∈ wayTo cwd (anchored above names)) : q <+: names := by
  rw [wayTo, anchored_text hn] at h
  cases above with
  | true =>
    simp only [↓reduceIte, singleton_append, segments_up_names hn, scanl_cons, mem_cons] at h
    rcases h with rfl | h
    · exact nil_prefix
    · exact prefix_of_mem_scanl hn h
  | false =>
    simp only [Bool.false_eq_true, ↓reduceIte, nil_append] at h
    by_cases hne : names = []
    · subst hne
      have hq : q ∈ [([] : Place), []] := h
      simp at hq
      simp [hq]
    · rw [segments_names hn hne] at h
      exact prefix_of_mem_scanl hn h

theorem prefix_of_mem_wayTo_names {q : Place} {cwd : Path} (hn : ∀ n ∈ names, IsName n)
    (h : q ∈ wayTo cwd (ofParts false (names.map .name))) : q <+: namesOf cwd ++ names := by
  have htext : (ofParts false (names.map .name)).text = partsText (names.map .name) :=
    text_ofParts (proper_names hn)
  rw [wayTo, htext] at h
  by_cases hne : names = []
  · subst hne
    have hq : q ∈ [namesOf cwd, namesOf cwd] := h
    simp at hq
    simp [hq]
  · have hhead := head?_partsText (Component.proper_names hn) (by simpa using hne)
    split at h
    · rename_i hslash
      rw [hslash] at hhead
      exact absurd rfl hhead
    · rw [segments_names hn hne] at h
      exact prefix_of_mem_scanl hn h

theorem refusal?_eq_none {p : Path} :
    refusal? p = none ↔ '\x00' ∉ p.text ∧ p.text.byteLength < pathLimit := by
  unfold refusal?
  split
  · simp [*]
  · split
    · simp_all
    · simp_all

theorem exists_partsText_names (q m : List Text) : ∃ between, partsText ((q ++ m).map .name) =
    partsText (q.map .name) ++ between ++ partsText (m.map .name) := by
  by_cases hq : q = []
  · exact ⟨[], by simp [hq, partsText]⟩
  · by_cases hm : m = []
    · exact ⟨[], by simp [hm, partsText]⟩
    · exact ⟨['/'], by rw [map_append, partsText_append (by simpa) (by simpa)]; simp⟩

theorem byteLength_anchored (above : Bool) (hn : ∀ n ∈ names, IsName n) :
    (partsText (names.map .name)).byteLength + 1 ≤ (anchored above names).text.byteLength ∧
      (anchored above names).text.byteLength ≤ (partsText (names.map .name)).byteLength + 4 := by
  have hslash (t : Text) : Text.byteLength ('/' :: t) = t.byteLength + 1 := by
    rw [← singleton_append, Text.byteLength_append, Nat.add_comm]
    rfl
  rw [anchored_text hn, hslash]
  cases above with
  | false => simp
  | true =>
    by_cases hne : names = []
    · subst hne
      decide
    · have hup : partsText ([.up] ++ names.map .name) =
          ['.', '.'] ++ '/' :: partsText (names.map .name) := by
        rw [partsText_append (by simp) (by simpa using hne), partsText_singleton]
        rfl
      have hdots : Text.byteLength ['.', '.'] = 2 := rfl
      rw [if_pos rfl, hup, Text.byteLength_append, hslash, hdots]
      omega

theorem mem_anchored {c : Char} (hn : ∀ n ∈ names, IsName n) (h₁ : c ≠ '/') (h₂ : c ≠ '.') :
    c ∈ (anchored above names).text ↔ c ∈ partsText (names.map .name) := by
  rw [anchored_text hn]
  cases above with
  | false => simp [h₁]
  | true =>
    by_cases hne : names = []
    · subst hne
      simp [partsText, Component.text, h₁, h₂]
    · rw [if_pos rfl, partsText_append (by simp) (by simpa using hne), partsText_singleton]
      simp [Component.text, h₁, h₂]

/-- Directories above a path that can be used can be used too, by either of their own paths, if what the
path has beyond them is not very short. -/
theorem refusal?_anchored_append {above' : Bool} {more : List Text} (hn : ∀ n ∈ names ++ more, IsName n)
    (hmore : 3 ≤ (partsText (more.map .name)).byteLength)
    (h : refusal? (anchored above (names ++ more)) = none) :
    refusal? (anchored above' names) = none := by
  have hnames : ∀ n ∈ names, IsName n := fun n hm => hn n (by simp [hm])
  obtain ⟨hzero, hlength⟩ := refusal?_eq_none.mp h
  obtain ⟨between, happ⟩ := exists_partsText_names names more
  refine refusal?_eq_none.mpr ⟨fun hm => hzero ?_, ?_⟩
  · rw [mem_anchored hn (by decide) (by decide), happ]
    rw [mem_anchored hnames (by decide) (by decide)] at hm
    simp [hm]
  · have hlong := (byteLength_anchored above hn).1
    have hshort := (byteLength_anchored above' hnames).2
    rw [happ, Text.byteLength_append, Text.byteLength_append] at hlong
    omega

end

end

end FileTree

end Runbook
