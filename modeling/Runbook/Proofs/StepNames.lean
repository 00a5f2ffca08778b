import Runbook.Proofs.Linking
import Runbook.Proofs.Reference
import Runbook.RunTree

/-!
# Steps and their names

The name of a wrapper is the symbol of a module, a marker for the kind and a name, with nothing escaped.
Reading it back takes the marker that ends first, so a row is found by the events of its step exactly if the
symbol of the called module holds no marker.
-/

open List

namespace Runbook
open Kind

variable {func before symbol : Text} {k : Kind}

/-! ## First occurrences -/

theorem Text.length_le_of_cut {needle t a b a' b' : Text} (h : cut needle t = some (a, b))
    (h' : t = a' ++ (needle ++ b')) : a.length ≤ a'.length := by
  induction t generalizing a a' with
  | nil =>
    simp only [cut] at h
    split at h
    · cases h
      exact Nat.zero_le _
    · cases h
  | cons c rest ih =>
    simp only [cut] at h
    split at h
    · cases h
      exact Nat.zero_le _
    · rename_i hp
      obtain ⟨⟨a₁, b₁⟩, hcut, he⟩ := Option.map_eq_some_iff.mp h
      cases he
      cases a' with
      | nil =>
        rw [nil_append] at h'
        rw [isPrefixOf?_eq_some_iff_append_eq.mpr h'.symm] at hp
        cases hp
      | cons d a' =>
        obtain ⟨rfl, hrest⟩ := List.cons.inj h'
        exact Nat.succ_le_succ (ih hcut hrest)

theorem earliest_eq_none {found : List (Nat × RowKind × Text)} (h : earliest found = none) :
    found = [] := by
  cases found with
  | nil => rfl
  | cons y rest =>
    simp only [earliest] at h
    split at h
    · split at h <;> cases h
    · cases h

theorem earliest_spec {found : List (Nat × RowKind × Text)} {x : Nat × RowKind × Text}
    (h : earliest found = some x) : x ∈ found ∧ ∀ y ∈ found, x.1 ≤ y.1 := by
  induction found generalizing x with
  | nil => cases h
  | cons y rest ih =>
    simp only [earliest] at h
    split at h
    · rename_i z hz
      obtain ⟨hmem, hle⟩ := ih hz
      split at h
      · rename_i hy
        cases h
        exact ⟨by simp, forall_mem_cons.mpr
          ⟨Nat.le_refl _, fun w hw => Nat.le_trans hy (hle w hw)⟩⟩
      · rename_i hy
        cases h
        exact ⟨by simp [hmem], forall_mem_cons.mpr ⟨Nat.le_of_not_le hy, hle⟩⟩
    · rename_i hz
      cases h
      simp [earliest_eq_none hz]

/-! ## Markers -/

namespace Kind

/-- What stands between the symbol and the name in the name of a wrapper. -/
def marker (k : Kind) : Text := "__" ++ k.text ++ "_"

/-- The kind of the rows that stand for calls of such a declaration. -/
def row : Kind → RowKind
  | rule => .rule
  | function => .function
  | workflow => .workflow

theorem row_injective : Function.Injective row := by
  intro k k' h
  cases k <;> cases k' <;> first | rfl | cases h

theorem mem_kindMarkers {marker : Text} {kind : RowKind} :
    (marker, kind) ∈ kindMarkers ↔ ∃ k : Kind, marker = k.marker ∧ kind = k.row := by
  constructor
  · intro h
    simp only [kindMarkers, mem_cons, Prod.mk.injEq, not_mem_nil, or_false] at h
    rcases h with ⟨rfl, rfl⟩ | ⟨rfl, rfl⟩ | ⟨rfl, rfl⟩
    · exact ⟨workflow, rfl, rfl⟩
    · exact ⟨rule, rfl, rfl⟩
    · exact ⟨function, rfl, rfl⟩
  · rintro ⟨k, rfl, rfl⟩
    cases k <;> decide

theorem marker_underscores {k : Kind} {a b : Text} (h : k.marker = a ++ ('_' :: '_' :: b)) : a = [] := by
  cases a with
  | nil => rfl
  | cons c a =>
    have htail : Text.contains ['_', '_'] k.marker.tail = true := by
      rw [Text.contains_iff, h]
      exact ⟨a, b, by simp⟩
    cases k <;> exact absurd htail (by decide)

theorem marker_inside {k k' : Kind} {gap after rest : Text} (h : k.marker ++ rest = gap ++ (k'.marker ++ after))
    (hle : gap.length + k'.marker.length ≤ k.marker.length) : k' = k ∧ gap = [] ∧ after = rest := by
  have hin : gap ++ k'.marker <+: k.marker :=
    prefix_of_prefix_length_le ⟨after, by rw [h, List.append_assoc]⟩ (prefix_append ..) (by simpa using hle)
  have hk : k' = k := by
    have hsub : Text.contains k'.marker k.marker = true :=
      Text.contains_iff.mpr ((suffix_append gap k'.marker).isInfix.trans hin.isInfix)
    cases k <;> cases k' <;> first | rfl | exact absurd hsub (by decide)
  subst hk
  obtain rfl : gap = [] := length_eq_zero_iff.mp (by omega)
  exact ⟨rfl, rfl, (append_cancel_left h).symm⟩

theorem marker_eq (k : Kind) : k.marker = '_' :: '_' :: (k.text ++ ['_']) := rfl

end Kind

theorem wrapperName_eq (symbol : Text) (k : Kind) (name : Text) :
    wrapperName symbol k name = symbol ++ (k.marker ++ name) := by
  simp [wrapperName, marker]

/-- The first place of each marker, by where it ends. -/
def markersIn (func : Text) : List (Nat × RowKind × Text) :=
  kindMarkers.filterMap fun (marker, kind) =>
    (Text.cut marker func).map fun (before, after) => (before.length + marker.length, kind, after)

theorem mem_markersIn {x : Nat × RowKind × Text} :
    x ∈ markersIn func ↔ ∃ (k : Kind) (a b : Text), Text.cut k.marker func = some (a, b) ∧
      x = (a.length + k.marker.length, k.row, b) := by
  simp only [markersIn, mem_filterMap, Option.map_eq_some_iff, Prod.exists, mem_kindMarkers]
  constructor
  · rintro ⟨_, _, ⟨k, rfl, rfl⟩, a, b, hcut, rfl⟩
    exact ⟨k, a, b, hcut, rfl⟩
  · rintro ⟨k, a, b, hcut, rfl⟩
    exact ⟨_, _, ⟨k, rfl, rfl⟩, a, b, hcut, rfl⟩

theorem exists_mem_markersIn {name : Text} (h : func = before ++ (k.marker ++ name)) :
    ∃ x ∈ markersIn func, x.1 ≤ before.length + k.marker.length := by
  obtain ⟨⟨a, b⟩, hcut⟩ : ∃ x, Text.cut k.marker func = some x :=
    Option.isSome_iff_exists.mp (Text.cut_isSome_iff.mpr ⟨before, name, by simp [h]⟩)
  exact ⟨_, mem_markersIn.mpr ⟨k, a, b, hcut, rfl⟩,
    Nat.add_le_add_right (Text.length_le_of_cut hcut h) _⟩

theorem classify_of_earliest {name : Text} {n : Nat} {k : RowKind}
    (h : earliest (markersIn func) = some (n, k, name)) : classify func = (k, name) := by
  rw [markersIn] at h
  rw [classify, h]

theorem classify_spec {name : Text} (h : func = before ++ (k.marker ++ name)) :
    ∃ (k₀ : Kind) (before₀ name₀ : Text), classify func = (k₀.row, name₀) ∧
      func = before₀ ++ (k₀.marker ++ name₀) ∧
      ∀ k' before' name', func = before' ++ (marker k' ++ name') →
        before₀.length + k₀.marker.length ≤ before'.length + k'.marker.length := by
  obtain ⟨y, hy, -⟩ := exists_mem_markersIn h
  cases hx : earliest (markersIn func) with
  | none =>
    rw [earliest_eq_none hx] at hy
    cases hy
  | some x =>
    obtain ⟨hmem, hle⟩ := earliest_spec hx
    obtain ⟨k₀, a, b, hcut, rfl⟩ := mem_markersIn.mp hmem
    refine ⟨k₀, a, b, classify_of_earliest hx, Text.eq_of_cut hcut, fun k' before' name' hf => ?_⟩
    obtain ⟨z, hz, hend⟩ := exists_mem_markersIn hf
    exact Nat.le_trans (hle z hz) hend

/-! ## Names of wrappers -/

/-- A marker stands in the symbol, or starts in it and ends with the first character behind it. -/
def Marked (symbol : Text) : Prop := ∃ k : Kind, k.marker <:+: symbol ++ ['_']

instance (symbol : Text) : Decidable (Marked symbol) :=
  decidable_of_iff ([rule, .function, .workflow].any fun k => Text.contains k.marker (symbol ++ ['_']))
    (by
      simp only [any_eq_true, Text.contains_iff, Marked]
      exact ⟨fun ⟨k, _, h⟩ => ⟨k, h⟩, fun ⟨k, h⟩ => ⟨k, by cases k <;> simp, h⟩⟩)

/-- Of two markers that overlap in the name of a wrapper, the one that is not its own ends with the first
character of the other. -/
theorem marker_overlap {k' : Kind} {name rest : Text}
    (h : symbol ++ (k.marker ++ name) = before ++ (k'.marker ++ rest))
    (hle : before.length + k'.marker.length ≤ symbol.length + k.marker.length) :
    (k' = k ∧ rest = name) ∨ before.length + k'.marker.length ≤ symbol.length + 1 := by
  rcases append_eq_append_iff.mp h with ⟨gap, rfl, hm⟩ | ⟨gap, rfl, hm⟩
  · -- The other marker starts inside the own one, so it is the own one.
    rw [length_append] at hle
    obtain ⟨hk, -, hrest⟩ := marker_inside hm (by omega)
    exact Or.inl ⟨hk, hrest⟩
  · by_cases hend : k'.marker.length ≤ gap.length + 1
    · right
      simp only [length_append]
      omega
    · -- The other marker reaches two underscores into the own one, which it can only do from its start.
      have hpre : gap ++ ['_', '_'] <+: k'.marker := by
        refine prefix_of_prefix_length_le ⟨k.text ++ ['_'] ++ name, ?_⟩ ⟨rest, hm⟩ ?_
        · simp [marker_eq]
        · simp only [length_append, length_cons, length_nil]
          omega
      obtain ⟨after, hafter⟩ := hpre
      obtain rfl : gap = [] := marker_underscores (b := after) (by simpa using hafter.symm)
      have hm : k.marker ++ name = [] ++ (k'.marker ++ rest) := hm.symm
      obtain ⟨hk, -, hrest⟩ := marker_inside hm (by simpa using hle)
      exact Or.inl ⟨hk, hrest⟩

theorem classify_wrapperName (h : ¬ Marked symbol) (k : Kind) (name : Text) :
    classify (wrapperName symbol k name) = (k.row, name) := by
  rw [wrapperName_eq]
  obtain ⟨k₀, before, name₀, hc, hf, hle⟩ :=
    classify_spec (rfl : symbol ++ (k.marker ++ name) = symbol ++ (k.marker ++ name))
  rcases marker_overlap hf (hle k symbol name rfl) with ⟨rfl, rfl⟩ | hend
  · exact hc
  · refine absurd ⟨k₀, ?_⟩ h
    have hpre : before ++ k₀.marker <+: symbol ++ ['_'] := by
      have hall : symbol ++ ['_'] <+: symbol ++ (k.marker ++ name) :=
        ⟨'_' :: (k.text ++ ['_']) ++ name, by simp [marker_eq]⟩
      exact prefix_of_prefix_length_le ⟨name₀, by simp [hf]⟩ hall (by simpa using hend)
    exact (suffix_append before k₀.marker).isInfix.trans hpre.isInfix

theorem classify_wrapperName_of_marked (h : Marked symbol) (k : Kind) (name : Text) :
    '_' :: name <:+ (classify (wrapperName symbol k name)).2 := by
  obtain ⟨k₁, a, b, hs⟩ := h
  have hf₁ : wrapperName symbol k name =
      a ++ (k₁.marker ++ (b ++ ('_' :: (k.text ++ ['_']) ++ name))) := by
    calc wrapperName symbol k name
        = (symbol ++ ['_']) ++ ('_' :: (k.text ++ ['_']) ++ name) := by
          simp [wrapperName_eq, marker_eq]
      _ = _ := by simp [← hs]
  obtain ⟨k₀, before, name₀, hc, hf, hle⟩ := classify_spec hf₁
  rw [hc]
  have hend : before.length + k₀.marker.length ≤ symbol.length + 1 := by
    have hlen := congrArg List.length hs
    simp only [length_append, length_cons, length_nil] at hlen
    have := hle k₁ a _ hf₁
    omega
  have hname : '_' :: name <:+ wrapperName symbol k name :=
    ⟨symbol ++ '_' :: '_' :: k.text, by simp [wrapperName_eq, marker_eq]⟩
  refine suffix_of_suffix_length_le hname ⟨before ++ k₀.marker, by simp [hf]⟩ ?_
  have hlen := congrArg List.length hf
  simp only [wrapperName_eq, marker_eq, length_append, length_cons, length_nil]
    at hlen hend ⊢
  omega

/-! ## Written references -/

def Target.name : Target → Text
  | own name => name
  | imported _ name => name

/-- A row that shows a reference is found by the name of a wrapper exactly if its symbol holds no marker. -/
theorem RunTree.matches?_wrapperName {row : Row} {target : Target} (hk : row.kind = k.row)
    (hn : row.name = target.toText) (symbol : Text) :
    let step := classify (wrapperName symbol k target.name)
    matches? step.1 step.2 (row, ⟨.pending, none⟩) = true ↔ ¬ Marked symbol := by
  intro step
  constructor
  · intro hmatch hmarked
    have hlong : '_' :: target.name <:+ step.2 := classify_wrapperName_of_marked hmarked k target.name
    have hshort : step.2 <:+ target.toText := by
      simp only [matches?, Text.endsWith, hn, Bool.and_eq_true, Bool.or_eq_true, decide_eq_true_eq,
        isSuffixOf_iff_suffix] at hmatch
      rcases hmatch.2 with h | h
      · exact h ▸ suffix_rfl
      · exact (suffix_cons ..).trans h
    have hu := hlong.trans hshort
    cases target with
    | own name => exact absurd hu.length_le (by simp [Target.toText, Target.name])
    | imported owner name =>
      have hdot := suffix_of_suffix_length_le hu (suffix_append owner ('.' :: name)) (by simp [Target.name])
      have heq := hdot.eq_of_length (by simp [Target.name])
      exact absurd heq (by simp)
  · intro hmarked
    simp only [step, classify_wrapperName hmarked]
    cases target with
    | own name => simp [matches?, hk, hn, Target.toText, Target.name]
    | imported owner name => simp [matches?, Text.endsWith, hk, hn, Target.toText, Target.name]

/-! ## Rows and steps -/

theorem forall_childRows {P : RowKind → Text → Prop} {nested : List Bool → List Text → Text → Expanded}
    (hn : ∀ indent visited workflow, ∀ row ∈ (nested indent visited workflow).1, P row.kind row.name)
    {children : List Child} (hc : ∀ c ∈ children, P c.kind c.name) (indent : List Bool)
    (visited : List Text) : ∀ row ∈ (childRows nested indent visited children).1, P row.kind row.name := by
  induction children generalizing visited with
  | nil => simp [childRows]
  | cons child rest ih =>
    have hrest := ih (fun c h => hc c (by simp [h]))
    simp only [childRows, cons_append, forall_mem_cons, forall_mem_append]
    refine ⟨hc child (by simp), ?_, hrest _⟩
    split
    · split
      · simp
      · exact hn _ _ _
    · simp

namespace Module

theorem step_of_mem_expand (m : Module) (fuel : Nat) (indent : List Bool) (visited : List Text)
    (workflow : Text) : ∀ row ∈ (m.expand fuel indent visited workflow).1,
      ∃ w ∈ m.workflows, ∃ step ∈ w.steps, ∃ c ∈ m.stepChildren step,
        c.kind = row.kind ∧ c.name = row.name := by
  induction fuel generalizing indent visited workflow with
  | zero => simp [expand]
  | succ fuel ih =>
    refine forall_childRows (P := fun kind name => ∃ w ∈ m.workflows, ∃ step ∈ w.steps,
      ∃ c ∈ m.stepChildren step, c.kind = kind ∧ c.name = name) ih (fun c hc => ?_) indent visited
    simp only [children] at hc
    split at hc
    · rename_i w hw
      obtain ⟨step, hs, hc⟩ := mem_flatMap.mp hc
      exact ⟨w, mem_of_find?_eq_some hw, step, hs, c, hc, rfl, rfl⟩
    · cases hc

theorem reference_of_mem_stepChildren {m : Module} {step : Step} {c : Child} (hc : c ∈ m.stepChildren step)
    {k : Kind} (hk : c.kind = k.row) (hf : k ≠ .function) :
    ∃ r, (k, r) ∈ step.references ∧ r.value = c.name := by
  cases step with
  | ensure rule args =>
    obtain rfl := mem_singleton.mp hc
    obtain rfl : Kind.rule = k := Kind.row_injective hk
    exact ⟨rule, by simp [Step.references], rfl⟩
  | run workflow =>
    obtain rfl := mem_singleton.mp hc
    obtain rfl : Kind.workflow = k := Kind.row_injective hk
    exact ⟨workflow, by simp [Step.references], rfl⟩
  | prompt text loc =>
    obtain rfl := mem_singleton.mp hc
    cases k <;> cases hk
  | shell command loc =>
    obtain ⟨f, -, rfl⟩ := mem_map.mp hc
    obtain rfl : function = k := row_injective hk
    exact absurd rfl hf
  | unlessRun rule workflow =>
    rcases mem_cons.mp hc with rfl | hc
    · obtain rfl : Kind.rule = k := Kind.row_injective hk
      exact ⟨rule, by simp [Step.references], rfl⟩
    · obtain rfl := mem_singleton.mp hc
      obtain rfl : Kind.workflow = k := Kind.row_injective hk
      exact ⟨workflow, by simp [Step.references], rfl⟩
  | unlessShell rule commands =>
    obtain rfl := mem_singleton.mp hc
    obtain rfl : Kind.rule = k := Kind.row_injective hk
    exact ⟨rule, by simp [Step.references], rfl⟩

end Module

/-! ## Calls behind the rows -/

/-- The statement of a step calls the function for a reference of the step. -/
inductive StepCalls : Step → Statement → Kind → Reference → Text → Prop
  | ensure {rule args f} : StepCalls (.ensure rule args) (.call f args) .rule rule f
  | run {workflow f} : StepCalls (.run workflow) (.call f none) .workflow workflow f
  | check {rule workflow f g} : StepCalls (.unlessRun rule workflow) (.unless f [g]) .rule rule f
  | otherwise {rule workflow f g} : StepCalls (.unlessRun rule workflow) (.unless f [g]) .workflow workflow g
  | guarded {rule commands f} :
      StepCalls (.unlessShell rule commands) (.unless f (commands.map (·.command))) .rule rule f

/-- A reference of a step that a row shows, and the function that the script calls for it. -/
structure RowCall (layout : Layout) (m : Module) (s : Script) (row : Row) (k : Kind) (r : Reference)
    (function : Text) where
  workflow : Workflow
  definition : Definition
  step : Step
  statement : Statement
  declared : workflow ∈ m.workflows
  generated : m.workflowDefinition layout workflow = .ok definition
  defined : definition ∈ s.definitions
  placed : (step, statement) ∈ workflow.steps.zip definition.body
  calls : StepCalls step statement k r function
  kind : row.kind = k.row
  name : row.name = r.value

section

variable {step : Step} {st : Statement}
variable {layout : Layout} {m : Module}

theorem callee_of_stepCalls (hs : m.statement layout step = .ok st) {k : Kind} {r : Reference} {f : Text}
    (hc : StepCalls step st k r f) : (k, r) ∈ step.references ∧ m.callee layout k r = .ok f := by
  cases hc with
  | ensure =>
    obtain ⟨f, hf, h⟩ := of_bind_ok hs
    cases h
    exact ⟨by simp [Step.references], hf⟩
  | run =>
    obtain ⟨f, hf, h⟩ := of_bind_ok hs
    cases h
    exact ⟨by simp [Step.references], hf⟩
  | check =>
    obtain ⟨f, hf, h⟩ := of_bind_ok hs
    obtain ⟨g, -, h⟩ := of_bind_ok h
    cases h
    exact ⟨by simp [Step.references], hf⟩
  | otherwise =>
    obtain ⟨f, -, h⟩ := of_bind_ok hs
    obtain ⟨g, hg, h⟩ := of_bind_ok h
    cases h
    exact ⟨by simp [Step.references], hg⟩
  | guarded =>
    obtain ⟨f, hf, h⟩ := of_bind_ok hs
    cases h
    exact ⟨by simp [Step.references], hf⟩

theorem stepCalls_of_references (hs : m.statement layout step = .ok st) {k : Kind} {r : Reference}
    (hr : (k, r) ∈ step.references) : ∃ f, StepCalls step st k r f := by
  cases step with
  | ensure rule args =>
    obtain ⟨f, -, h⟩ := of_bind_ok hs
    cases h
    cases mem_singleton.mp hr
    exact ⟨f, .ensure⟩
  | run workflow =>
    obtain ⟨f, -, h⟩ := of_bind_ok hs
    cases h
    cases mem_singleton.mp hr
    exact ⟨f, .run⟩
  | prompt text loc => cases hr
  | shell command loc => cases hr
  | unlessRun rule workflow =>
    obtain ⟨f, -, h⟩ := of_bind_ok hs
    obtain ⟨g, -, h⟩ := of_bind_ok h
    cases h
    rcases mem_cons.mp hr with h | hr
    · cases h
      exact ⟨f, .check⟩
    · cases mem_singleton.mp hr
      exact ⟨g, .otherwise⟩
  | unlessShell rule commands =>
    obtain ⟨f, -, h⟩ := of_bind_ok hs
    cases h
    cases mem_singleton.mp hr
    exact ⟨f, .guarded⟩

theorem Module.statement_of_mem_zip {w : Workflow} {d : Definition} (h : m.workflowDefinition layout w = .ok d)
    (hz : (step, st) ∈ w.steps.zip d.body) : m.statement layout step = .ok st := by
  obtain ⟨-, body, hbody, hd⟩ := workflowDefinition_spec h
  by_cases hb : body = []
  · subst hb
    rw [forall₂_nil_right_iff.mp hbody] at hz
    cases hz
  · rw [hd, if_neg hb] at hz
    exact (forall₂_iff_zip.mp hbody).2 hz

theorem Module.exists_mem_zip {w : Workflow} {d : Definition} (h : m.workflowDefinition layout w = .ok d)
    (hs : step ∈ w.steps) : ∃ st, (step, st) ∈ w.steps.zip d.body := by
  obtain ⟨-, body, hbody, hd⟩ := workflowDefinition_spec h
  obtain ⟨i, hi, rfl⟩ := getElem_of_mem hs
  have hlen : i < body.length := hbody.length_eq ▸ hi
  have hb : body ≠ [] := ne_nil_of_length_pos (Nat.zero_lt_of_lt hlen)
  refine ⟨body[i], ?_⟩
  rw [hd, if_neg hb]
  exact mem_of_getElem? (i := i) (getElem?_zip_eq_some.mpr ⟨by simp [hi], by simp [hlen]⟩)

end

theorem Definition.stepLine_symbol (d : Definition) :
    ∃ rest : Text, d.stepLine = "  jaiph__run_step " ++ d.symbol ++ " " ++ rest := by
  have hsplit : (" jaiph__execute_readonly" : Text) = " " ++ "jaiph__execute_readonly" := by decide
  unfold stepLine
  rw [hsplit]
  -- The literals are set aside, as only the order of the parts counts.
  generalize ("  jaiph__run_step " : Text) = run, (" " : Text) = blank, (" \"$@\"" : Text) = args,
    ("jaiph__execute_readonly" : Text) = readonly
  by_cases h : d.sandboxed = true
  · exact ⟨readonly ++ (blank ++ (bodyName d.symbol ++ args)), by simp [h]⟩
  · exact ⟨bodyName d.symbol ++ args, by simp [h]⟩

/-- The file that declares what a reference of the module means. -/
def Module.Owns (cwd : Path) (m : Module) : Target → Path → Prop
  | .own _, file => file = m.file
  | .imported owner _, file => ∃ i ∈ m.imports, i.owner = owner ∧ file = importedFile cwd m.file i.path

section

variable {t : FileTree} {root file : Path} {m : Module} {k : Kind}

theorem linked_of_linksTo {r : Reference} {f : Text} (h : LinksTo t root m k r f) :
    ∃ target file, r.target = some target ∧ m.Owns t.cwd target file ∧
      Linked t root k target.name file f := by
  simp only [LinksTo] at h
  split at h
  · rename_i name ht
    exact ⟨.own name, m.file, ht, rfl, h⟩
  · rename_i owner name ht
    obtain ⟨i, hi, ho, hl⟩ := h
    exact ⟨.imported owner name, _, ht, ⟨i, hi, ho, rfl⟩, hl⟩
  · exact h.elim

theorem Linked.reports {name f : Text} (h : Linked t root k name file f) {p : Path} {s : Script}
    (hp : p.resolve t.cwd = file) (hs : t.compile p root = .ok s) :
    ∃ rest, s.text.HasLines [f ++ "() \x7b", "  jaiph__run_step " ++ f ++ " " ++ rest] := by
  obtain ⟨n, hn, hd⟩ := h.declared
  obtain ⟨n', hn', hfile, -, hscript⟩ := FileTree.compile_spec hs
  rw [hp, hn] at hn'
  cases hn'
  obtain ⟨d, hmem, hsym⟩ := Module.definition_of_declares hscript hd
  rw [hfile, hp, Layout.symbol_resolve, ← h.symbol] at hsym
  obtain ⟨rest, hrest⟩ := d.stepLine_symbol
  rw [hsym] at hrest
  obtain ⟨above, below, hl⟩ := Script.lines_split hmem
  refine ⟨rest, ?_⟩
  have hlines : s.lines = (above ++ (d.comments ++ functionLines (bodyName d.symbol)
      (d.body.flatMap Statement.lines))) ++ [f ++ "() \x7b", d.stepLine] ++
        ([['}'], []] ++ d.bareLines ++ below) := by
    simp [hl, Definition.lines, functionLines, hsym]
  rw [Script.text, hlines, ← hrest]
  exact Text.hasLines_trimEnd (by simp) (l := ['}']) (by simp) (c := '}') (by simp) (by decide)

end

/-- Every row that shows a rule or a workflow stands for a reference of a step, for which the script calls a
wrapper in the file that the reference means. The wrapper runs its step under its own name, and an event
with this name matches the row exactly if the symbol of that file holds no marker. -/
theorem row_matches_iff (t : FileTree) (entry root : Path) (s : Script)
    (h : t.compile entry root = .ok s) :
    ∃ m, t.readModule (entry.resolve t.cwd) = .ok m ∧
      ∀ row ∈ (RunTree.ofModule m).rows.tail, ∀ k : Kind, row.1.kind = k.row → k ≠ .function →
        (∃ r f, Nonempty (RowCall ⟨t.cwd, root.resolve t.cwd⟩ m s row.1 k r f)) ∧
        ∀ r f, Nonempty (RowCall ⟨t.cwd, root.resolve t.cwd⟩ m s row.1 k r f) →
          ∃ target file, r.target = some target ∧ m.Owns t.cwd target file ∧
            Linked t root k target.name file f ∧
            (∀ p s', p.resolve t.cwd = file → t.compile p root = .ok s' →
              ∃ rest, s'.text.HasLines [f ++ "() \x7b", "  jaiph__run_step " ++ f ++ " " ++ rest]) ∧
            ∀ e : Event, e.func = f → (RunTree.matches? e.step.1 e.step.2 row = true ↔
              ¬ Marked (Layout.symbol ⟨t.cwd, root⟩ file)) := by
  obtain ⟨m, hm, hfile, hv, hscript⟩ := FileTree.compile_spec h
  refine ⟨m, hm, fun row hrow k hk hf => ⟨?_, ?_⟩⟩
  · obtain ⟨r', hr', rfl⟩ := mem_map.mp hrow
    obtain ⟨w, hw, step, hs, c, hc, hck, hcn⟩ :=
      m.step_of_mem_expand (m.workflows.length + 1) _ _ _ r' hr'
    obtain ⟨r, hr, hrv⟩ := Module.reference_of_mem_stepChildren hc (hck.trans hk) hf
    obtain ⟨workflows, hws, hdefs⟩ := Module.script_spec hscript
    obtain ⟨d, hd, hwd⟩ := exists_of_forall₂ hws hw
    obtain ⟨st, hz⟩ := Module.exists_mem_zip hwd hs
    obtain ⟨f, hcall⟩ := stepCalls_of_references (Module.statement_of_mem_zip hwd hz) hr
    exact ⟨r, f, ⟨w, d, step, st, hw, hwd, by simp [hdefs, hd], hz, hcall, hk, by rw [hrv, hcn]⟩⟩
  · rintro r f ⟨call⟩
    obtain ⟨hr, hcallee⟩ :=
      callee_of_stepCalls (Module.statement_of_mem_zip call.generated call.placed) call.calls
    have hres : m.file.resolve t.cwd = m.file := by rw [hfile, Path.resolve_resolve]
    have hstep : call.step ∈ call.workflow.steps := (of_mem_zip call.placed).1
    obtain ⟨target, file, ht, howns, hl⟩ := linked_of_linksTo
      (linksTo_of_callee hv hres (hfile ▸ hm) (mem_references call.declared hstep _ hr) hcallee)
    refine ⟨target, file, ht, howns, hl, fun p s' => hl.reports, ?_⟩
    rintro e rfl
    obtain ⟨r', -, rfl⟩ := mem_map.mp hrow
    have hname : r'.name = target.toText := by rw [Target.toText_of_ofText ht, call.name]
    rw [Event.step, hl.symbol]
    exact RunTree.matches?_wrapperName hk hname _

/-- A file that checks a rule of its own and runs a workflow of the file `lib/rule`. -/
def markedImport : FileTree where
  cwd := "/"
  root := .dir [
    ("m.jph", .file 0o644 (Utf8.encode
      "import \"lib/rule\" as r\nrule ok \x7b\n\x7d\nworkflow default \x7b\n  ensure ok\n  run r.go\n\x7d\n")),
    ("lib", .dir [("rule.jph", .file 0o644 (Utf8.encode "workflow go \x7b\n\x7d\n"))])]

def markedImporter : Module where
  file := "/m.jph"
  imports := [⟨"lib/rule", "r", ⟨1, 1⟩⟩]
  exported := []
  rules := [⟨"ok", [], [], ⟨2, 1⟩⟩]
  functions := []
  workflows := [⟨"default", [], [.ensure ⟨"ok", ⟨5, 3⟩⟩ none, .run ⟨"r.go", ⟨6, 3⟩⟩], ⟨4, 1⟩⟩]

def markedScript : Script where
  guard := "__jaiph_loaded_m"
  libraryPath := "jaiph_stdlib.sh"
  imports := ["lib/rule.sh"]
  definitions := [
    ⟨[], "m__rule_ok", [.shell "set -eo pipefail", .shell "set +u", .shell ":"], true, none⟩,
    ⟨[], "m__workflow_default", [.call "m__rule_ok" none, .call "lib__rule__workflow_go" none], false, none⟩]

/-- The row of the rule is found by its event, and the row of the workflow is not. -/
theorem row_matches_markedImport :
    markedImport.compile "m.jph" "/" = .ok markedScript ∧
    markedImport.readModule "/m.jph" = .ok markedImporter ∧
    ∃ check run rCheck rRun f g, (RunTree.ofModule markedImporter).rows.tail = [check, run] ∧
      Nonempty (RowCall ⟨"/", "/"⟩ markedImporter markedScript check.1 .rule rCheck f) ∧
      Nonempty (RowCall ⟨"/", "/"⟩ markedImporter markedScript run.1 .workflow rRun g) ∧
      (∀ e : Event, e.func = f → RunTree.matches? e.step.1 e.step.2 check = true) ∧
      ∀ e : Event, e.func = g → RunTree.matches? e.step.1 e.step.2 run = false := by
  have hscript : markedImport.compile "m.jph" "/" = .ok markedScript := of_toOption (by decide +kernel)
  have hread : markedImport.readModule "/m.jph" = .ok markedImporter := of_toOption (by decide +kernel)
  have htree : (RunTree.ofModule markedImporter).rows.tail =
      [(⟨.rule, "ok", [], some true⟩, ⟨.pending, none⟩),
        (⟨.workflow, "r.go", [], some false⟩, ⟨.pending, none⟩)] := by decide +kernel
  obtain ⟨m, hm, hrows⟩ := row_matches_iff markedImport "m.jph" "/" markedScript hscript
  have hfile : Path.resolve "m.jph" markedImport.cwd = "/m.jph" := by decide +kernel
  rw [hfile, hread] at hm
  cases hm
  rw [htree] at hrows
  have hroot : Path.resolve "/" markedImport.cwd = "/" := by decide +kernel
  rw [hroot] at hrows
  obtain ⟨⟨rCheck, f, ⟨callCheck⟩⟩, hcheck⟩ := hrows _ (mem_cons_self ..) .rule rfl (by decide)
  obtain ⟨⟨rRun, g, ⟨callRun⟩⟩, hrun⟩ :=
    hrows _ (mem_cons_of_mem _ (mem_cons_self ..)) .workflow rfl (by decide)
  refine ⟨hscript, hread, _, _, rCheck, rRun, f, g, htree, ⟨callCheck⟩, ⟨callRun⟩, ?_, ?_⟩
  · obtain ⟨target, file, ht, howns, -, -, hiff⟩ := hcheck rCheck f ⟨callCheck⟩
    have htarget : Target.ofText "ok" = some (.own "ok") := by decide
    rw [Reference.target, ← callCheck.name, htarget] at ht
    cases ht
    cases howns
    exact fun e he => (hiff e he).mpr (by decide +kernel)
  · obtain ⟨target, file, ht, howns, -, -, hiff⟩ := hrun rRun g ⟨callRun⟩
    have htarget : Target.ofText "r.go" = some (.imported "r" "go") := by decide
    rw [Reference.target, ← callRun.name, htarget] at ht
    cases ht
    obtain ⟨i, hi, -, rfl⟩ := howns
    obtain rfl := mem_singleton.mp hi
    intro e he
    rw [Bool.eq_false_iff, ne_eq, hiff e he]
    decide +kernel

end Runbook
