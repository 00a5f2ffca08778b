import Mathlib.Data.List.Nodup
import Mathlib.Data.List.TakeWhile
import Runbook.RunTree

/-!
# The outline of a run

The rows of a run tree are an outline: each row has a level, and what follows it at deeper levels is below
it. The steps of a workflow stand directly below the first row that names it, so each workflow that the run
can reach is laid out once, however the workflows call each other.
-/

open List

namespace Runbook
open Row

/-- The workflows of the module that its run can reach. -/
inductive Module.Reached (m : Module) : Text → Prop
  | root : m.Reached rootWorkflow
  | run {w : Text} {decl : Workflow} {target : Reference} (hw : m.Reached w)
      (hdecl : m.workflow? w = some decl) (hstep : .run target ∈ decl.steps) (hown : '.' ∉ target.value) :
      m.Reached target.value
  | unlessRun {w : Text} {decl : Workflow} {rule target : Reference} (hw : m.Reached w)
      (hdecl : m.workflow? w = some decl) (hstep : .unlessRun rule target ∈ decl.steps)
      (hown : '.' ∉ target.value) : m.Reached target.value

namespace Child

/-- The workflow of the same module that the child runs. -/
def own? (c : Child) : Option Text :=
  match c.nested with
  | some w => if '.' ∈ w then none else some w
  | none => none

def step (c : Child) : RowKind × Text := (c.kind, c.name)

def row (c : Child) (indent : List Bool) (goesOn : Bool) : Row := ⟨c.kind, c.name, indent, some goesOn⟩

/-- Exactly the children that are workflows may have rows below them, and their names say which. -/
def Named (c : Child) : Prop := c.nested = if c.kind = .workflow then some c.name else none

theorem own?_eq_some {c : Child} {w : Text} : c.own? = some w ↔ c.nested = some w ∧ '.' ∉ w := by
  unfold own?
  split <;> simp_all
  grind

end Child

namespace Row

variable {r : Row} {names : List Text}

def level (r : Row) : Nat :=
  match r.branch with
  | none => 0
  | some _ => r.indent.length + 1

def step (r : Row) : RowKind × Text := (r.kind, r.name)

/-- The workflow of the same module that the row stands for. -/
def own? (r : Row) : Option Text := if r.kind = .workflow ∧ '.' ∉ r.name then some r.name else none

/-- The rows below the row, among those that follow it. -/
def below (r : Row) (rest : List Row) : List Row := rest.takeWhile fun s => r.level < s.level

def directlyBelow (r : Row) (rest : List Row) : List Row := (r.below rest).filter fun s => s.level = r.level + 1

/-- Adds the workflow of the row to those named before. -/
def note (names : List Text) (r : Row) : List Text :=
  match r.own? with
  | some w => if w ∈ names then names else names ++ [w]
  | none => names

theorem own?_row {c : Child} (h : c.Named) (indent : List Bool) (goesOn : Bool) :
    (c.row indent goesOn).own? = c.own? := by
  unfold own? Child.own? Child.row
  rw [h]
  by_cases hk : c.kind = .workflow <;> simp [hk]

@[simp]
theorem level_row (c : Child) (indent : List Bool) (goesOn : Bool) :
    (c.row indent goesOn).level = indent.length + 1 := rfl

@[simp]
theorem step_row (c : Child) (indent : List Bool) (goesOn : Bool) : (c.row indent goesOn).step = c.step := rfl

theorem note_of_new {w : Text} (h : r.own? = some w) (hw : w ∉ names) : note names r = names ++ [w] := by
  simp [note, h, hw]

theorem note_of_known (h : ∀ w, r.own? = some w → w ∈ names) : note names r = names := by
  unfold note
  split
  · rename_i w hw
    exact if_pos (h w hw)
  · rfl

theorem nodup_note (h : names.Nodup) : (note names r).Nodup := by
  unfold note
  split
  · split
    · exact h
    · rename_i hw
      exact nodup_append.mpr ⟨h, nodup_singleton _, by grind⟩
  · exact h

theorem nodup_foldl_note (h : names.Nodup) (rows : List Row) : (rows.foldl note names).Nodup := by
  induction rows generalizing names with
  | nil => exact h
  | cons r rows ih => exact ih (nodup_note h)

theorem below_append {a b : List Row} (h : ∀ s ∈ b.head?, s.level ≤ r.level) :
    r.below (a ++ b) = r.below a := by
  induction a with
  | nil =>
    cases b with
    | nil => rfl
    | cons s b => simp [below, Nat.not_lt.mpr (h s rfl)]
  | cons x a ih =>
    simp only [below, cons_append, takeWhile_cons] at ih ⊢
    rw [ih]

theorem below_eq_nil {rest : List Row} (h : ∀ s ∈ rest.head?, s.level ≤ r.level) : r.below rest = [] :=
  below_append (a := []) h

theorem below_eq_self {rest : List Row} (h : ∀ s ∈ rest, r.level < s.level) : r.below rest = rest :=
  takeWhile_eq_self_iff.mpr fun s hs => decide_eq_true (h s hs)

end Row

/-! ## Expanding without a bound -/

namespace Module

/-- The rows of the children with everything below them, and the workflows visited then. A workflow is
expanded at the child that visits it, however deep that is. -/
inductive Expands (m : Module) : (indent : List Bool) → (visited : List Text) → List Child →
    List Row → List Text → Prop
  | nil {indent : List Bool} {visited : List Text} : Expands m indent visited [] [] visited
  | leaf {indent : List Bool} {visited visited' : List Text} {child : Child} {rest : List Child}
      {after : List Row} (hknown : ∀ w, child.own? = some w → w ∈ visited)
      (hrest : Expands m indent visited rest after visited') :
      Expands m indent visited (child :: rest) (child.row indent (!rest.isEmpty) :: after) visited'
  | nest {indent : List Bool} {visited visited₁ visited₂ : List Text} {child : Child} {rest : List Child}
      {w : Text} {below after : List Row} (hown : child.own? = some w) (hnew : w ∉ visited)
      (hbelow : Expands m (indent ++ [!rest.isEmpty]) (visited ++ [w]) (m.children w) below visited₁)
      (hrest : Expands m indent visited₁ rest after visited₂) :
      Expands m indent visited (child :: rest) (child.row indent (!rest.isEmpty) :: (below ++ after)) visited₂

section

variable {w : Text} {c : Child}
variable {m : Module} {indent : List Bool} {visited visited' : List Text} {children : List Child}
  {rows : List Row}

theorem Expands.unique {rows' : List Row} {visited'' : List Text}
    (h : m.Expands indent visited children rows visited')
    (h' : m.Expands indent visited children rows' visited'') : rows' = rows ∧ visited'' = visited' := by
  induction h generalizing rows' visited'' with
  | nil =>
    cases h'
    exact ⟨rfl, rfl⟩
  | leaf hknown _ ih =>
    cases h' with
    | leaf _ hrest' =>
      obtain ⟨rfl, rfl⟩ := ih hrest'
      exact ⟨rfl, rfl⟩
    | nest hown hnew _ _ => exact absurd (hknown _ hown) hnew
  | nest hown hnew _ _ ihbelow ihrest =>
    cases h' with
    | leaf hknown _ => exact absurd (hknown _ hown) hnew
    | nest hown' _ hbelow' hrest' =>
      cases hown.symm.trans hown'
      obtain ⟨rfl, rfl⟩ := ihbelow hbelow'
      obtain ⟨rfl, rfl⟩ := ihrest hrest'
      exact ⟨rfl, rfl⟩

/-- What is visited is kept, in order. With each workflow that is visited newly, its children come as rows. -/
theorem Expands.length_rows (h : m.Expands indent visited children rows visited') :
    ∃ new, visited' = visited ++ new ∧ rows.length = children.length + (new.flatMap m.children).length := by
  induction h with
  | nil => exact ⟨[], by simp, by simp⟩
  | leaf _ _ ih =>
    obtain ⟨new, rfl, hlen⟩ := ih
    exact ⟨new, rfl, by simp only [length_cons, hlen]; omega⟩
  | nest _ _ _ _ ihbelow ihrest =>
    rename_i w _ _ _ _ _ _
    obtain ⟨new₁, rfl, hbelow⟩ := ihbelow
    obtain ⟨new₂, rfl, hrest⟩ := ihrest
    refine ⟨w :: new₁ ++ new₂, by simp, ?_⟩
    simp only [length_cons, length_append, hbelow, hrest, flatMap_append, flatMap_cons]
    omega

theorem Expands.subset (h : m.Expands indent visited children rows visited') : visited ⊆ visited' := by
  obtain ⟨new, rfl, -⟩ := h.length_rows
  exact subset_append_left visited new

def unvisited (m : Module) (visited : List Text) : Nat := m.workflows.countP fun d => d.name ∉ visited

theorem countP_unvisited_le (h : visited ⊆ visited') (decls : List Workflow) :
    decls.countP (fun d => d.name ∉ visited') ≤ decls.countP fun d => d.name ∉ visited := by
  refine countP_mono_left fun d _ hd => ?_
  simp only [decide_eq_true_eq] at hd ⊢
  exact fun hv => hd (h hv)

theorem children_eq_nil_or_unvisited_lt (h : w ∉ visited) :
    m.children w = [] ∨ m.unvisited (visited ++ [w]) < m.unvisited visited := by
  cases hw : m.workflow? w with
  | none => exact .inl (by simp [children, hw])
  | some decl =>
    have hname : decl.name = w := by simpa using find?_some hw
    obtain ⟨before, behind, hsplit⟩ := append_of_mem (mem_of_find?_eq_some hw)
    have hbefore := countP_unvisited_le (subset_append_left visited [w]) before
    have hbehind := countP_unvisited_le (subset_append_left visited [w]) behind
    refine .inr ?_
    simp only [unvisited, hsplit, countP_append, countP_cons, hname, h, mem_append,
      mem_singleton, or_true, not_true_eq_false, not_false_eq_true, decide_true, decide_false,
      Bool.false_eq_true, ↓reduceIte] at hbefore hbehind ⊢
    omega

theorem childRows_of_known {nested : List Bool → List Text → Text → Expanded} {child : Child}
    {rest : List Child} (h : ∀ w, child.own? = some w → w ∈ visited) :
    childRows nested indent visited (child :: rest) =
      (child.row indent (!rest.isEmpty) :: (childRows nested indent visited rest).1,
        (childRows nested indent visited rest).2) := by
  unfold Child.own? at h
  cases hn : child.nested with
  | none => simp [childRows, hn, Child.row]
  | some w =>
    have hw : '.' ∈ w ∨ w ∈ visited := by grind
    simp [childRows, hn, hw, Child.row]

theorem childRows_of_new {nested : List Bool → List Text → Text → Expanded} {child : Child} {rest : List Child}
    (hown : child.own? = some w) (hnew : w ∉ visited) :
    let below := nested (indent ++ [!rest.isEmpty]) (visited ++ [w]) w
    childRows nested indent visited (child :: rest) =
      (child.row indent (!rest.isEmpty) :: (below.1 ++ (childRows nested indent below.2 rest).1),
        (childRows nested indent below.2 rest).2) := by
  obtain ⟨hn, hdot⟩ := Child.own?_eq_some.mp hown
  simp [childRows, hn, hdot, hnew, Child.row]

theorem expands_childRows {fuel : Nat}
    (hexpand : ∀ indent visited w, m.children w = [] ∨ m.unvisited visited < fuel →
      m.Expands indent visited (m.children w) (m.expand fuel indent visited w).1
        (m.expand fuel indent visited w).2)
    (indent : List Bool) (children : List Child) (hle : m.unvisited visited ≤ fuel) :
    m.Expands indent visited children (childRows (m.expand fuel) indent visited children).1
      (childRows (m.expand fuel) indent visited children).2 := by
  induction children generalizing visited with
  | nil => exact .nil
  | cons child rest ih =>
    by_cases hknown : ∀ w, child.own? = some w → w ∈ visited
    · rw [childRows_of_known hknown]
      exact .leaf hknown (ih hle)
    · push Not at hknown
      obtain ⟨w, hown, hnew⟩ := hknown
      rw [childRows_of_new hown hnew]
      have hbelow := hexpand (indent ++ [!rest.isEmpty]) (visited ++ [w]) w
        ((children_eq_nil_or_unvisited_lt hnew).imp_right fun hlt => Nat.lt_of_lt_of_le hlt hle)
      have hsub := List.Subset.trans (subset_append_left visited [w]) hbelow.subset
      exact .nest hown hnew hbelow (ih (Nat.le_trans (countP_unvisited_le hsub _) hle))

theorem expands_expand (fuel : Nat) (indent : List Bool) (visited : List Text) (w : Text)
    (h : m.children w = [] ∨ m.unvisited visited < fuel) :
    m.Expands indent visited (m.children w) (m.expand fuel indent visited w).1
      (m.expand fuel indent visited w).2 := by
  -- the depth left is more than the declarations left, except for a workflow without rows
  induction fuel generalizing indent visited w with
  | zero =>
    have hnil : m.children w = [] := h.resolve_right (Nat.not_lt_zero _)
    rw [hnil]
    exact .nil
  | succ fuel ih =>
    rcases h with hnil | hlt
    · rw [hnil, expand, hnil]
      exact .nil
    · exact expands_childRows ih indent _ (Nat.le_of_lt_succ hlt)

/-! ## What is visited -/

theorem mem_children :
    c ∈ m.children w ↔ ∃ decl, m.workflow? w = some decl ∧ ∃ step ∈ decl.steps, c ∈ m.stepChildren step := by
  unfold children
  split <;> simp_all

theorem named_of_mem_children (h : c ∈ m.children w) : c.Named := by
  obtain ⟨decl, -, step, -, hc⟩ := mem_children.mp h
  unfold Child.Named
  cases step <;> simp only [stepChildren, mem_cons, mem_map, not_mem_nil, or_false] at hc <;> grind

theorem reached_of_child {v : Text} (hw : m.Reached w) (hc : c ∈ m.children w) (hown : c.own? = some v) :
    m.Reached v := by
  obtain ⟨decl, hdecl, step, hstep, hc⟩ := mem_children.mp hc
  obtain ⟨hnested, hdot⟩ := Child.own?_eq_some.mp hown
  cases step with
  | run target =>
    simp only [stepChildren, mem_singleton] at hc
    subst hc
    cases hnested
    exact .run hw hdecl hstep hdot
  | unlessRun rule target =>
    simp only [stepChildren, mem_cons, not_mem_nil, or_false] at hc
    rcases hc with rfl | rfl
    · cases hnested
    · cases hnested
      exact .unlessRun hw hdecl hstep hdot
  | shell command loc =>
    simp only [stepChildren, mem_map] at hc
    obtain ⟨f, -, rfl⟩ := hc
    cases hnested
  | _ =>
    simp only [stepChildren, mem_singleton] at hc
    subst hc
    cases hnested

theorem Reached.mem {names : List Text} (hroot : rootWorkflow ∈ names)
    (hclosed : ∀ w ∈ names, ∀ c ∈ m.children w, ∀ v, c.own? = some v → v ∈ names) (h : m.Reached w) :
    w ∈ names := by
  induction h with
  | root => exact hroot
  | @run _ _ target _ hdecl hstep hown ih =>
    have hchild : ⟨.workflow, target.value, some target.value⟩ ∈ m.stepChildren (.run target) :=
      mem_singleton_self _
    exact hclosed _ ih _ (mem_children.mpr ⟨_, hdecl, _, hstep, hchild⟩) _ (Child.own?_eq_some.mpr ⟨rfl, hown⟩)
  | @unlessRun _ _ rule target _ hdecl hstep hown ih =>
    have hchild : ⟨.workflow, target.value, some target.value⟩ ∈ m.stepChildren (.unlessRun rule target) :=
      mem_cons_of_mem _ (mem_singleton_self _)
    exact hclosed _ ih _ (mem_children.mpr ⟨_, hdecl, _, hstep, hchild⟩) _ (Child.own?_eq_some.mpr ⟨rfl, hown⟩)

theorem Expands.reached (h : m.Expands indent visited children rows visited')
    (hvisited : ∀ w ∈ visited, m.Reached w) (hchildren : ∀ c ∈ children, ∀ w, c.own? = some w → m.Reached w) :
    ∀ w ∈ visited', m.Reached w := by
  induction h with
  | nil => exact hvisited
  | leaf _ _ ih => exact ih hvisited fun c hc => hchildren c (mem_cons_of_mem _ hc)
  | nest hown _ _ _ ihbelow ihrest =>
    have hw := hchildren _ mem_cons_self _ hown
    refine ihrest (ihbelow ?_ fun c hc v hv => reached_of_child hw hc hv)
      fun c hc => hchildren c (mem_cons_of_mem _ hc)
    intro v hv
    rcases mem_append.mp hv with hv | hv
    · exact hvisited v hv
    · rw [mem_singleton.mp hv]
      exact hw

/-- Everything that the children run is visited then, and so is everything that the workflows visited newly
run. -/
theorem Expands.closed (h : m.Expands indent visited children rows visited') :
    (∀ c ∈ children, ∀ w, c.own? = some w → w ∈ visited') ∧
    ∀ w ∈ visited', w ∉ visited → ∀ c ∈ m.children w, ∀ v, c.own? = some v → v ∈ visited' := by
  induction h with
  | nil => exact ⟨by simp, fun w hw hn => absurd hw hn⟩
  | leaf hknown hrest ih =>
    refine ⟨fun c hc w hw => ?_, ih.2⟩
    rcases mem_cons.mp hc with rfl | hc
    · exact hrest.subset (hknown w hw)
    · exact ih.1 c hc w hw
  | @nest _ _ visited₁ visited₂ child rest w _ _ hown hnew hbelow hrest ihbelow ihrest =>
    -- a workflow that is skipped was visited before, and whoever visited it answers for what it runs
    refine ⟨fun c hc v hv => ?_, fun v hv hnot c hc u hu => ?_⟩
    · rcases mem_cons.mp hc with rfl | hc
      · cases hown.symm.trans hv
        exact hrest.subset (hbelow.subset (by simp))
      · exact ihrest.1 c hc v hv
    · by_cases hv₁ : v ∈ visited₁
      · by_cases hvw : v = w
        · subst hvw
          exact hrest.subset (ihbelow.1 c hc u hu)
        · exact hrest.subset (ihbelow.2 v hv₁ (by simp [hnot, hvw]) c hc u hu)
      · exact ihrest.2 v hv hv₁ c hc u hu

theorem Expands.foldl_note (h : m.Expands indent visited children rows visited')
    (hnamed : ∀ c ∈ children, c.Named) : rows.foldl note visited = visited' := by
  induction h with
  | nil => rfl
  | leaf hknown _ ih =>
    rw [foldl_cons, note_of_known, ih fun c hc => hnamed c (mem_cons_of_mem _ hc)]
    rwa [own?_row (hnamed _ mem_cons_self)]
  | nest hown hnew _ _ ihbelow ihrest =>
    rw [← own?_row (hnamed _ mem_cons_self)] at hown
    rw [foldl_cons, foldl_append, note_of_new hown hnew,
      ihbelow fun c => named_of_mem_children, ihrest fun c hc => hnamed c (mem_cons_of_mem _ hc)]

/-! ## Levels -/

theorem Expands.levels (h : m.Expands indent visited children rows visited') :
    (∀ r ∈ rows, indent.length < r.level) ∧ (∀ r ∈ rows.head?, r.level = indent.length + 1) ∧
    (rows.filter fun r => r.level = indent.length + 1).map step = children.map Child.step := by
  induction h with
  | nil => simp
  | leaf _ _ ih =>
    obtain ⟨hdeep, -, hsteps⟩ := ih
    refine ⟨?_, by simp, ?_⟩
    · simpa using hdeep
    · simpa using hsteps
  | @nest indent _ _ _ child rest _ below after _ _ _ _ ihbelow ihrest =>
    obtain ⟨hdeepBelow, -, -⟩ := ihbelow
    obtain ⟨hdeep, -, hsteps⟩ := ihrest
    -- what is below the child has one more entry in its indent, so none of it is counted
    have hlt : ∀ r ∈ below, indent.length + 1 < r.level := by simpa using hdeepBelow
    have hnone : below.filter (fun r => r.level = indent.length + 1) = [] :=
      filter_eq_nil_iff.mpr fun r hr heq => Nat.ne_of_gt (hlt r hr) (by simpa using heq)
    refine ⟨?_, by simp, ?_⟩
    · intro r hr
      rcases mem_cons.mp hr with rfl | hr
      · simp
      · rcases mem_append.mp hr with hr | hr
        · exact Nat.lt_of_succ_lt (hlt r hr)
        · exact hdeep r hr
    · simpa [filter_append, hnone] using hsteps

end

/-- What the outline shows at a row: a workflow named for the first time has its steps directly below,
another row has nothing below, and the next row goes down by one level at most. `names` are the workflows
named before. -/
structure Outlined (m : Module) (names : List Text) (r : Row) (rest : List Row) : Prop where
  first : ∀ w, r.own? = some w → w ∉ names →
    (r.directlyBelow rest).map step = (m.children w).map Child.step
  other : (∀ w, r.own? = some w → w ∈ names) → r.below rest = []
  next : ∀ s ∈ rest.head?, s.level ≤ r.level + 1

def OutlinedAll (m : Module) : List Text → List Row → Prop
  | _, [] => True
  | names, r :: rest => m.Outlined names r rest ∧ m.OutlinedAll (r.note names) rest

section

variable {m : Module} {names visited visited' : List Text} {indent : List Bool} {children : List Child}
  {a b rows : List Row} {r : Row}

theorem Outlined.append (h : m.Outlined names r a) (hb : ∀ s ∈ b.head?, s.level ≤ r.level) :
    m.Outlined names r (a ++ b) where
  first w hw hn := by
    rw [directlyBelow, below_append hb]
    exact h.first w hw hn
  other hw := by rw [below_append hb, h.other hw]
  next s hs := by
    cases a with
    | nil => exact Nat.le_succ_of_le (hb s hs)
    | cons x a => exact h.next s hs

theorem OutlinedAll.append (ha : m.OutlinedAll names a) (hb : m.OutlinedAll (a.foldl note names) b)
    (hlevel : ∀ s ∈ b.head?, ∀ r ∈ a, s.level ≤ r.level) : m.OutlinedAll names (a ++ b) := by
  induction a generalizing names with
  | nil => exact hb
  | cons r a ih =>
    refine ⟨ha.1.append fun s hs => hlevel s hs r mem_cons_self, ih ha.2 hb ?_⟩
    exact fun s hs r hr => hlevel s hs r (mem_cons_of_mem _ hr)

theorem OutlinedAll.split (h : m.OutlinedAll names (a ++ r :: b)) : m.Outlined (a.foldl note names) r b := by
  induction a generalizing names with
  | nil => exact h.1
  | cons x a ih => exact ih h.2

theorem Expands.outlinedAll (h : m.Expands indent visited children rows visited')
    (hnamed : ∀ c ∈ children, c.Named) : m.OutlinedAll visited rows := by
  induction h with
  | nil => trivial
  | @leaf indent visited _ child rest after hknown hrest ih =>
    rw [← own?_row (hnamed _ mem_cons_self) indent (!rest.isEmpty)] at hknown
    have hhead : ∀ s ∈ after.head?, s.level = indent.length + 1 := hrest.levels.2.1
    refine ⟨⟨fun w hw hn => absurd (hknown w hw) hn, fun _ => ?_, fun s hs => ?_⟩, ?_⟩
    · exact below_eq_nil fun s hs => Nat.le_of_eq (hhead s hs)
    · exact Nat.le_succ_of_le (Nat.le_of_eq (hhead s hs))
    · rw [note_of_known hknown]
      exact ih fun c hc => hnamed c (mem_cons_of_mem _ hc)
  | @nest indent visited _ _ child rest w below after hown hnew hbelow hrest ihbelow ihrest =>
    rw [← own?_row (hnamed _ mem_cons_self) indent (!rest.isEmpty)] at hown
    obtain ⟨hdeep, hbelowHead, hsteps⟩ := hbelow.levels
    rw [length_append, length_singleton] at hdeep hbelowHead hsteps
    have hhead : ∀ s ∈ after.head?, s.level = indent.length + 1 := hrest.levels.2.1
    -- the workflow's own rows are the ones below, for the next child is not deeper
    have hrow : m.Outlined visited (child.row indent (!rest.isEmpty)) below := by
      refine ⟨fun v hv _ => ?_, fun hknown => absurd (hknown w hown) hnew, fun s hs => ?_⟩
      · cases hown.symm.trans hv
        rwa [directlyBelow, below_eq_self hdeep]
      · exact Nat.le_of_eq (hbelowHead s hs)
    refine ⟨hrow.append fun s hs => Nat.le_of_eq (hhead s hs), ?_⟩
    rw [note_of_new hown hnew]
    refine (ihbelow fun c => named_of_mem_children).append ?_ fun s hs r hr => ?_
    · rw [hbelow.foldl_note fun c => named_of_mem_children]
      exact ihrest fun c hc => hnamed c (mem_cons_of_mem _ hc)
    · rw [hhead s hs]
      exact Nat.le_of_lt (hdeep r hr)

end

section

variable {m : Module} {names : List Text} {rows : List Row}
  (h : m.Expands [] [rootWorkflow] (m.children rootWorkflow) rows names)

include h

theorem mem_names_iff {w : Text} : w ∈ names ↔ m.Reached w := by
  constructor
  · exact h.reached (by simpa using .root) (fun c hc v hv => reached_of_child .root hc hv) w
  · refine Reached.mem (h.subset mem_cons_self) fun v hv => ?_
    by_cases hvisited : v ∈ [rootWorkflow]
    · rw [mem_singleton.mp hvisited]
      exact h.closed.1
    · exact h.closed.2 v hv hvisited

theorem note_rows : (root :: rows).foldl note [] = names := by
  have hroot : note [] root = [rootWorkflow] := by decide
  rw [foldl_cons, hroot, h.foldl_note fun c => named_of_mem_children]

theorem outlinedAll_root : m.OutlinedAll [] (root :: rows) := by
  have hown : root.own? = some rootWorkflow := by decide
  obtain ⟨hdeep, hhead, hsteps⟩ := h.levels
  refine ⟨⟨fun w hw _ => ?_, fun hknown => ?_, fun s hs => Nat.le_of_eq (hhead s hs)⟩, ?_⟩
  · cases hown.symm.trans hw
    rw [directlyBelow, below_eq_self hdeep]
    exact hsteps
  · exact absurd (hknown rootWorkflow hown) not_mem_nil
  · rw [note_of_new hown not_mem_nil]
    exact h.outlinedAll fun c => named_of_mem_children

end

end Module

namespace RunTree

def outline (t : RunTree) : List Row := t.rows.map Prod.fst

/-- The workflows of the module that the rows name, in the order of their first rows. -/
def workflowNames (rows : List Row) : List Text := rows.foldl note []

theorem expands_outline (m : Module) : ∃ rows names, (ofModule m).outline = root :: rows ∧
    m.Expands [] [rootWorkflow] (m.children rootWorkflow) rows names := by
  refine ⟨_, _, ?_, m.expands_expand (m.workflows.length + 1) [] [rootWorkflow] rootWorkflow
    (.inr (Nat.lt_succ_of_le countP_le_length))⟩
  simp [outline, ofModule, Function.comp_def]

/-- The outline of a module's run: expanding comes to an end without a bound on the depth, the workflows
named are the ones that can be reached, and the steps of each stand directly below its first row. -/
theorem outline_ofModule (m : Module) :
    (∀ rows names, m.Expands [] [rootWorkflow] (m.children rootWorkflow) rows names ↔
      root :: rows = (ofModule m).outline ∧ names = workflowNames (ofModule m).outline) ∧
    (∀ w, w ∈ workflowNames (ofModule m).outline ↔ m.Reached w) ∧
    (workflowNames (ofModule m).outline).Nodup ∧
    (ofModule m).outline.length = 1 + ((workflowNames (ofModule m).outline).flatMap m.children).length ∧
    (∀ before r rest, (ofModule m).outline = before ++ r :: rest →
      m.Outlined (workflowNames before) r rest) ∧
    root.below (ofModule m).outline.tail = (ofModule m).outline.tail := by
  obtain ⟨rows, names, houtline, h⟩ := expands_outline m
  have hnames : workflowNames (root :: rows) = names := Module.note_rows h
  rw [houtline, hnames]
  refine ⟨fun rows' names' => ⟨fun h' => ?_, ?_⟩, fun w => Module.mem_names_iff h, ?_, ?_, ?_, ?_⟩
  · obtain ⟨rfl, rfl⟩ := h.unique h'
    exact ⟨rfl, rfl⟩
  · rintro ⟨hrows, rfl⟩
    cases hrows
    exact h
  · rw [← hnames]
    exact nodup_foldl_note nodup_nil _
  · obtain ⟨new, rfl, hlen⟩ := h.length_rows
    simp only [length_cons, hlen, flatMap_append, flatMap_cons, flatMap_nil, append_nil,
      length_append]
    omega
  · intro before r rest heq
    have hall := Module.outlinedAll_root h
    rw [heq] at hall
    exact hall.split
  · exact below_eq_self h.levels.1

end RunTree

end Runbook
