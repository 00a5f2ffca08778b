import Runbook.Proofs.PathText

/-!
# Where a path leads

Paths that lead to the same place have one lexical form: the double dots that find no name to take back, and
then the names that are left. Normalising finds these names, but of the double dots it keeps one if their
number is odd and none if it is even.
-/

open List

namespace Runbook
open Component

/-- The directory that a part leads to. A directory is given by the names on the way to it, and there is
nothing above the root. -/
def Component.go (dir : List Text) : Component → List Text
  | .root => []
  | .here => dir
  | .up => dir.dropLast
  | .name n => dir ++ [n]

/-- What is left of a path when every double dot has taken back the nearest name before it: the number of
double dots that found none, and the names. -/
structure Residue where
  ups : Nat
  names : List Text
deriving DecidableEq, Repr

namespace Residue

def empty : Residue := ⟨0, []⟩

def add (r : Residue) : Component → Residue
  | .root | .here => r
  | .up => if r.names = [] then { r with ups := r.ups + 1 } else { r with names := r.names.dropLast }
  | .name n => { r with names := r.names ++ [n] }

/-- Up from a directory and then down along the names. -/
def reach (dir : List Text) (r : Residue) : List Text := dir.take (dir.length - r.ups) ++ r.names

end Residue

namespace Path

variable {p : Path} {c : Component} {rooted : Bool} {cs : List Component}

def walk (p : Path) (dir : List Text) : List Text := p.components.foldl go dir

def residue (p : Path) : Residue := p.components.foldl Residue.add .empty

def climb (ups : Nat) (names : List Text) : List Component := List.replicate ups .up ++ names.map .name

/-- The lexical form of a path: a double dot that finds no name to take back stays in front of a relative
path, and it is dropped at the root. -/
def lexical (p : Path) : Path :=
  ofParts p.isAbsolute (climb (if p.isAbsolute then 0 else p.residue.ups) p.residue.names)

/-! ## What is left of a path -/

theorem mem_components (h : c ∈ p.components) : (c = .root ∧ p.isAbsolute = true) ∨ c = .here ∨ c.Proper := by
  rcases mem_append.mp h with hlead | hbody
  · obtain ⟨t⟩ := p
    rcases lead_cases t with ⟨body, rfl⟩ | rfl | ⟨body, rfl⟩ | ⟨h₁, h₂, h₃⟩
    · exact .inl ⟨by simpa [split, eq_comm] using hlead, rfl⟩
    · exact .inr (.inl (by simpa [split, eq_comm] using hlead))
    · exact .inr (.inl (by simpa [split, eq_comm] using hlead))
    · simp [split_other h₁ h₂ h₃] at hlead
  · exact .inr (.inr (proper_of_mem_bodyParts hbody))

theorem components_lead (p : Path) : ∃ cs, .root ∉ cs ∧ p.components = lead p.isAbsolute ++ cs := by
  by_cases h : p.isAbsolute = true
  · refine ⟨p.tailParts, fun hm => proper_of_mem_tailParts hm, ?_⟩
    rw [components_of_isAbsolute h, h]
    rfl
  · refine ⟨p.components, fun hm => ?_, by simp [h, lead]⟩
    rcases mem_components hm with ⟨-, ha⟩ | hhere | hproper
    · exact h ha
    · cases hhere
    · exact hproper

theorem isAbsolute_of_lead (hcs : .root ∉ cs) (h : p.components = lead rooted ++ cs) :
    p.isAbsolute = rooted := by
  obtain ⟨cs', hcs', h'⟩ := components_lead p
  have hroot : root ∈ p.components ↔ rooted = true := by
    rw [h]
    cases rooted <;> simp [lead, hcs]
  have hroot' : root ∈ p.components ↔ p.isAbsolute = true := by
    rw [h']
    cases p.isAbsolute <;> simp [lead, hcs']
  exact Bool.eq_iff_iff.mpr (hroot'.symm.trans hroot)

theorem residue_of_lead (h : p.components = lead rooted ++ cs) : p.residue = cs.foldl Residue.add .empty := by
  rw [residue, h, foldl_append]
  cases rooted <;> rfl

theorem isName_add {r : Residue} (hr : ∀ n ∈ r.names, IsName n) (hc : c = .root ∨ c = .here ∨ c.Proper) :
    ∀ n ∈ (r.add c).names, IsName n := by
  cases c with
  | root => exact hr
  | here => exact hr
  | up =>
    simp only [Residue.add]
    split
    · exact hr
    · exact fun n hn => hr n (dropLast_subset _ hn)
  | name m =>
    have hm : IsName m := (hc.resolve_left (by simp)).resolve_left (by simp)
    exact forall_mem_append.mpr ⟨hr, forall_mem_singleton.mpr hm⟩

theorem isName_residue (p : Path) : ∀ n ∈ p.residue.names, IsName n := by
  have hfold : ∀ (cs : List Component) (r : Residue), (∀ c ∈ cs, c = .root ∨ c = .here ∨ c.Proper) →
      (∀ n ∈ r.names, IsName n) → ∀ n ∈ (cs.foldl Residue.add r).names, IsName n := by
    intro cs
    induction cs with
    | nil => exact fun r _ hr => hr
    | cons c cs ih =>
      intro r hcs hr
      exact ih _ (fun d hd => hcs d (by simp [hd])) (isName_add hr (hcs c (by simp)))
  refine hfold _ _ (fun c hc => ?_) (by simp [Residue.empty])
  exact (mem_components hc).imp_left And.left

section

variable {rooted : Bool} {k : Nat} {names : List Text}

theorem proper_climb (k : Nat) (h : ∀ n ∈ names, IsName n) : ∀ c ∈ climb k names, c.Proper := by
  intro c hc
  rcases mem_append.mp hc with hc | hc
  · rw [eq_of_mem_replicate hc]
    trivial
  · exact proper_names h c hc

theorem proper_ways {up down : List Text} (h : ∀ n ∈ down, IsName n) :
    ∀ c ∈ up.map (fun _ => Component.up) ++ down.map .name, c.Proper := by
  intro c hc
  rcases mem_append.mp hc with hc | hc
  · obtain ⟨_, _, rfl⟩ := mem_map.mp hc
    trivial
  · exact proper_names h c hc

theorem isAbsolute_ofParts {cs : List Component} (h : ∀ c ∈ cs, c.Proper) :
    (ofParts rooted cs).isAbsolute = rooted := by
  cases rooted with
  | true => exact isAbsolute_extend (p := ⟨['/']⟩) rfl cs
  | false =>
    simp only [isAbsolute, text_ofParts h, leadText, Bool.false_eq_true, ↓reduceIte, nil_append,
      decide_eq_false_iff_not]
    by_cases hne : cs = []
    · subst hne
      intro hslash
      cases hslash
    · exact head?_partsText h hne

theorem foldl_add_up (k ups : Nat) :
    (List.replicate k up).foldl Residue.add ⟨ups, []⟩ = ⟨ups + k, []⟩ := by
  induction k generalizing ups with
  | zero => rfl
  | succ k ih =>
    have hups : ups + 1 + k = ups + (k + 1) := by omega
    rw [replicate_succ, foldl_cons, ← hups]
    exact ih (ups + 1)

theorem foldl_add_names (k : Nat) (kept names : List Text) :
    (names.map name).foldl Residue.add ⟨k, kept⟩ = ⟨k, kept ++ names⟩ := by
  induction names generalizing kept with
  | nil => simp
  | cons n rest ih => simp [Residue.add, ih]

theorem residue_ofParts (k : Nat) (h : ∀ n ∈ names, IsName n) :
    (ofParts rooted (climb k names)).residue = ⟨k, names⟩ := by
  rw [residue_of_lead (components_ofParts (proper_climb k h)), climb, foldl_append, Residue.empty,
    foldl_add_up, foldl_add_names, Nat.zero_add, nil_append]

theorem ofParts_climb_inj {rooted' : Bool} {k' : Nat} {names' : List Text} (h : ∀ n ∈ names, IsName n)
    (h' : ∀ n ∈ names', IsName n) :
    ofParts rooted (climb k names) = ofParts rooted' (climb k' names') ↔
      rooted = rooted' ∧ k = k' ∧ names = names' := by
  constructor
  · intro he
    have habs := congrArg isAbsolute he
    have hres := congrArg residue he
    rw [isAbsolute_ofParts (proper_climb k h), isAbsolute_ofParts (proper_climb k' h')] at habs
    rw [residue_ofParts k h, residue_ofParts k' h'] at hres
    exact ⟨habs, Residue.mk.inj hres⟩
  · rintro ⟨rfl, rfl, rfl⟩
    rfl

end

theorem foldl_add_back (k : Nat) (kept names : List Text) :
    (names.map fun _ => up).foldl Residue.add ⟨k, kept ++ names⟩ = ⟨k, kept⟩ := by
  induction names using List.reverseRecOn with
  | nil => simp
  | append_singleton init last ih =>
    have hups : (init ++ [last]).map (fun _ => up) = .up :: init.map fun _ => .up := by
      simp [map_const', ← replicate_succ, ← replicate_append_replicate]
    rw [hups, foldl_cons, Residue.add, if_neg (by simp), ← List.append_assoc, dropLast_concat]
    exact ih

/-! ## Where it leads -/

theorem go_reach (dir : List Text) (r : Residue) (hc : c ≠ .root) :
    c.go (r.reach dir) = (r.add c).reach dir := by
  cases c with
  | root => exact absurd rfl hc
  | here => rfl
  | name n => simp [go, Residue.add, Residue.reach]
  | up =>
    simp only [go, Residue.add]
    split
    · rename_i hnil
      simp only [Residue.reach, hnil, append_nil, dropLast_eq_take, length_take,
        take_take]
      congr 1
      omega
    · rename_i hne
      simp only [Residue.reach, dropLast_append_of_ne_nil hne]

theorem foldl_go_reach (hcs : .root ∉ cs) (dir : List Text) (r : Residue) :
    cs.foldl go (r.reach dir) = (cs.foldl Residue.add r).reach dir := by
  induction cs generalizing r with
  | nil => rfl
  | cons c cs ih =>
    have hc : c ≠ .root := fun h => hcs (by simp [h])
    rw [foldl_cons, go_reach dir r hc, ih (fun h => hcs (by simp [h])), foldl_cons]

theorem reach_nil (r : Residue) : r.reach [] = r.names := by simp [Residue.reach]

theorem reach_empty (dir : List Text) : Residue.empty.reach dir = dir := by
  simp [Residue.reach, Residue.empty]

theorem walk_eq (p : Path) (dir : List Text) :
    p.walk dir = p.residue.reach (if p.isAbsolute then [] else dir) := by
  obtain ⟨cs, hroot, hparts⟩ := components_lead p
  have hlead : (lead p.isAbsolute).foldl go dir = if p.isAbsolute then [] else dir := by
    cases p.isAbsolute <;> rfl
  have hrest := foldl_go_reach hroot (if p.isAbsolute then [] else dir) .empty
  rw [reach_empty] at hrest
  rw [walk, hparts, foldl_append, hlead, hrest, residue_of_lead hparts]

theorem walk_ofParts (k : Nat) {names : List Text} (h : ∀ n ∈ names, IsName n) (dir : List Text) :
    (ofParts rooted (climb k names)).walk dir = Residue.reach (if rooted then [] else dir) ⟨k, names⟩ := by
  rw [walk_eq, isAbsolute_ofParts (proper_climb k h), residue_ofParts k h]

theorem walk_lexical (p : Path) : p.lexical.walk = p.walk := by
  funext dir
  rw [lexical, walk_ofParts _ (isName_residue p), walk_eq]
  cases p.isAbsolute <;> simp [Residue.reach]

theorem length_reach_replicate (n : Nat) (r : Residue) :
    (r.reach (List.replicate n [])).length = n - r.ups + r.names.length := by
  simp [Residue.reach]

/-- A place has one lexical form: from the root it shows the names, and from far below it shows the number
of steps upwards. -/
theorem walk_eq_iff (p q : Path) : p.walk = q.walk ↔ p.lexical = q.lexical := by
  constructor
  · intro h
    have hnames : p.residue.names = q.residue.names := by
      have := congrFun h []
      simpa only [walk_eq, ite_self, reach_nil] using this
    have hfar := congrArg List.length (congrFun h (List.replicate (p.residue.ups + q.residue.ups + 1) []))
    rw [lexical, lexical, ofParts_climb_inj (isName_residue p) (isName_residue q)]
    simp only [walk_eq] at hfar
    cases hp : p.isAbsolute <;> cases hq : q.isAbsolute <;>
      simp only [hp, hq, Bool.false_eq_true, ↓reduceIte, length_reach_replicate, reach_nil, hnames] at hfar
    · have hups : p.residue.ups = q.residue.ups := by omega
      exact ⟨rfl, hups, hnames⟩
    · omega
    · omega
    · exact ⟨rfl, rfl, hnames⟩
  · intro h
    rw [← walk_lexical p, h, walk_lexical q]

/-! ## Normalising -/

/-- The parts that normalising holds, last part first. -/
def stack (rooted : Bool) (r : Residue) : List Component :=
  (r.names.map name).reverse ++ (List.replicate (r.ups % 2) .up ++ lead rooted)

theorem normalStep_stack (rooted : Bool) (r : Residue) (hc : c ≠ .root) :
    normalStep (stack rooted r) c = stack rooted (r.add c) := by
  cases c with
  | root => exact absurd rfl hc
  | here => rfl
  | name n => simp [normalStep, stack, Residue.add]
  | up =>
    obtain ⟨ups, names⟩ := r
    rcases eq_nil_or_concat names with rfl | ⟨init, last, rfl⟩
    · -- a double dot takes back the one that is kept, and is kept if there is none
      rcases Nat.mod_two_eq_zero_or_one ups with hups | hups <;>
        cases rooted <;>
        simp [normalStep, stack, Residue.add, lead, hups, Nat.add_mod]
    · simp [normalStep, stack, Residue.add]

theorem foldl_normalStep_stack (rooted : Bool) (hcs : .root ∉ cs) (r : Residue) :
    cs.foldl normalStep (stack rooted r) = stack rooted (cs.foldl Residue.add r) := by
  induction cs generalizing r with
  | nil => rfl
  | cons c cs ih =>
    have hc : c ≠ .root := fun h => hcs (by simp [h])
    rw [foldl_cons, normalStep_stack rooted r hc, ih (fun h => hcs (by simp [h])), foldl_cons]

/-- Normalising keeps the names that are left, and one double dot if the number of those left is odd. -/
theorem normalize_eq (p : Path) :
    p.normalize = ofParts p.isAbsolute (climb (p.residue.ups % 2) p.residue.names) := by
  obtain ⟨cs, hroot, hparts⟩ := components_lead p
  have hlead : (lead p.isAbsolute).foldl normalStep [] = stack p.isAbsolute .empty := by
    cases p.isAbsolute <;> rfl
  have hstack : (stack p.isAbsolute p.residue).reverse =
      lead p.isAbsolute ++ climb (p.residue.ups % 2) p.residue.names := by
    cases p.isAbsolute <;> simp [stack, lead, climb]
  rw [normalize, normalParts, hparts, foldl_append, hlead, foldl_normalStep_stack _ hroot,
    ← residue_of_lead hparts, hstack]
  rfl

theorem normalize_ofParts (k : Nat) {names : List Text} (h : ∀ n ∈ names, IsName n) :
    (ofParts rooted (climb k names)).normalize = ofParts rooted (climb (k % 2) names) := by
  rw [normalize_eq, isAbsolute_ofParts (proper_climb k h), residue_ofParts k h]

theorem normalize_eq_lexical_iff (p : Path) :
    p.normalize = p.lexical ↔ if p.isAbsolute then p.residue.ups % 2 = 0 else p.residue.ups < 2 := by
  rw [normalize_eq, lexical, ofParts_climb_inj (isName_residue p) (isName_residue p)]
  cases p.isAbsolute with
  | true => simp
  | false =>
    simp only [Bool.false_eq_true, ↓reduceIte, true_and, and_true]
    omega

theorem walk_normalize_iff (p : Path) :
    p.normalize.walk = p.walk ↔ p.isAbsolute = true ∨ p.residue.ups < 2 := by
  have hnames := isName_residue p
  rw [walk_eq_iff, normalize_eq, lexical, lexical, isAbsolute_ofParts (proper_climb _ hnames),
    residue_ofParts _ hnames, ofParts_climb_inj hnames hnames]
  cases p.isAbsolute with
  | true => simp
  | false =>
    simp only [Bool.false_eq_true, ↓reduceIte, true_and, and_true, false_or]
    omega

theorem normalize_normalize (p : Path) : p.normalize.normalize = p.normalize := by
  rw [normalize_eq p, normalize_ofParts _ (isName_residue p), Nat.mod_mod]

theorem normalize_eq_iff_of_walk {q : Path} (h : p.walk = q.walk) :
    p.normalize = q.normalize ↔ p.isAbsolute = false ∨ p.residue.ups % 2 = q.residue.ups % 2 := by
  have hp := isName_residue p
  have hq := isName_residue q
  rw [walk_eq_iff, lexical, lexical, ofParts_climb_inj hp hq] at h
  obtain ⟨hlead, hups, hnames⟩ := h
  rw [normalize_eq, normalize_eq, ofParts_climb_inj hp hq]
  cases ha : p.isAbsolute with
  | true => simp [← hlead, ha, hnames]
  | false =>
    simp only [← hlead, ha, Bool.false_eq_true, ↓reduceIte] at hups
    simp [← hlead, ha, hups, hnames]

/-- A path that goes up again by some of its names and then down is normalised as its lexical form says. -/
theorem lexical_detour {shared up down : List Text} (hfrom : ∀ n ∈ shared ++ up, IsName n)
    (hdown : ∀ n ∈ down, IsName n) (hp : p = (ofParts false ((shared ++ up).map .name)).push
      (partsText (up.map (fun _ => Component.up) ++ down.map .name))) :
    p.lexical = ofParts false ((shared ++ down).map .name) ∧
      p.normalize = ofParts false ((shared ++ down).map .name) := by
  have hways : ∀ c ∈ up.map (fun _ => Component.up) ++ down.map .name, c.Proper :=
    proper_ways hdown
  have hparts : p.components = lead false ++ ((shared ++ up).map .name ++
      (up.map (fun _ => Component.up) ++ down.map .name)) := by
    rw [hp, components_push_partsText (proper_names hfrom) hways]
  have hroot : Component.root ∉ (shared ++ up).map .name ++
      (up.map (fun _ => Component.up) ++ down.map .name) := by
    simp
  have hresidue : p.residue = ⟨0, shared ++ down⟩ := by
    have hdir : ((shared ++ up).map Component.name).foldl Residue.add .empty = ⟨0, shared ++ up⟩ :=
      foldl_add_names 0 [] _
    rw [residue_of_lead hparts, foldl_append, foldl_append, hdir, foldl_add_back, foldl_add_names]
  rw [lexical, normalize_eq, isAbsolute_of_lead hroot hparts, hresidue]
  exact ⟨rfl, rfl⟩

/-- The lexical form leads where the path leads, and paths to the same place have the same one. Normalising
gives the names of this form behind at most one double dot. So it changes nothing when it is done twice; it
keeps the place if the path is absolute or has at most one double dot left; and absolute paths to the same
place have the same result just if the numbers of double dots left are both even or both odd. -/
theorem normalize_lexical (p : Path) :
    (p.lexical.walk = p.walk ∧ ∀ q : Path, p.walk = q.walk ↔ p.lexical = q.lexical) ∧
    p.normalize = ofParts p.isAbsolute (climb (p.residue.ups % 2) p.residue.names) ∧
    (p.normalize = p.lexical ↔ if p.isAbsolute then p.residue.ups % 2 = 0 else p.residue.ups < 2) ∧
    (p.normalize.walk = p.walk ↔ p.isAbsolute = true ∨ p.residue.ups < 2) ∧
    p.normalize.normalize = p.normalize ∧
    ∀ q : Path, p.walk = q.walk →
      (p.normalize = q.normalize ↔ p.isAbsolute = false ∨ p.residue.ups % 2 = q.residue.ups % 2) :=
  ⟨⟨walk_lexical p, walk_eq_iff p⟩, normalize_eq p, normalize_eq_lexical_iff p, walk_normalize_iff p,
    normalize_normalize p, fun _ => normalize_eq_iff_of_walk⟩

/-- Two double dots in front are both lost, and one directly behind the root is kept: the first result is
another place, and the second one differs from that of the same place without it. -/
theorem normalize_lexical_above :
    Path.lexical "../../a" = "../../a" ∧ Path.normalize "../../a" = "a" ∧
    Path.walk (Path.normalize "../../a") ≠ Path.walk "../../a" ∧
    Path.lexical "/../a" = "/a" ∧ Path.walk "/../a" = Path.walk "/a" ∧
    Path.normalize "/../a" ≠ Path.normalize "/a" := by
  obtain ⟨-, -, -, hrelative, -⟩ := normalize_lexical "../../a"
  obtain ⟨⟨-, hplace⟩, -, -, -, -, hresult⟩ := normalize_lexical "/../a"
  have hsame : Path.walk "/../a" = Path.walk "/a" := (hplace "/a").mpr (by decide)
  refine ⟨by decide, by decide, ?_, by decide, hsame, ?_⟩
  · exact mt hrelative.mp (by decide)
  · exact mt (hresult "/a" hsame).mp (by decide)

end Path

end Runbook
