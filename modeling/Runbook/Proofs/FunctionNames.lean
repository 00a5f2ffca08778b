import Mathlib.Data.List.Pairwise
import Mathlib.Data.List.Perm.Basic
import Runbook.Proofs.Linking

/-!
# Names of shell functions

A function is named by a kind, a name and an ending put together, and some also by a bare name. The names
differ just if no kind has a name twice, no name is another one with the ending of a body, and no bare name
is put together like that. The shell keeps the last definition of a name, while looking up a workflow finds
the first.
-/

open List

namespace Runbook

/-- The names of all shell functions that a script defines, in order. -/
def Script.functionNames (s : Script) : List Text := s.definitions.flatMap Definition.functionNames

/-- The definition that the shell keeps for a name: the last one. -/
def Script.kept (s : Script) (name : Text) : Option Definition :=
  s.definitions.reverse.find? (name ∈ ·.functionNames)

/-- Calling a workflow by its name runs `w`: for its wrapper and its body the shell keeps what `w` becomes. -/
def Script.Runs (s : Script) (layout : Layout) (m : Module) (w : Workflow) : Prop :=
  ∃ d, m.workflowDefinition layout w = .ok d ∧
    s.kept (wrapperName (layout.symbol m.file) .workflow w.name) = some d ∧
    s.kept (bodyName (wrapperName (layout.symbol m.file) .workflow w.name)) = some d

/-- The bare name of a function; none for other declarations. -/
def bareNames (x : Kind × Text) : List Text := if x.1 = .function then [x.2] else []

/-- The names of the functions that a declaration becomes. -/
def declaredNames (symbol : Text) (x : Kind × Text) : List Text :=
  bodyName (wrapperName symbol x.1 x.2) :: wrapperName symbol x.1 x.2 :: bareNames x

namespace Module

/-- The declarations by kind and name, in the order of the script. -/
def declared (m : Module) : List (Kind × Text) :=
  m.rules.map (fun r => (.rule, r.name)) ++ m.functions.map (fun r => (.function, r.name)) ++
    m.workflows.map (fun w => (.workflow, w.name))

/-- No two functions get the same name: no kind has a name twice, none has a name both alone and with the
ending of a body, and no function has the name of a wrapper or a body. -/
structure Apart (m : Module) (symbol : Text) : Prop where
  once : m.declared.Nodup
  bodies : ∀ k n, (k, n) ∈ m.declared → (k, bodyName n) ∉ m.declared
  bare : ∀ f, (.function, f) ∈ m.declared → ∀ k n, (k, n) ∈ m.declared →
    f ≠ bodyName (wrapperName symbol k n) ∧ f ≠ wrapperName symbol k n

end Module

/-! ## Names that are put together -/

section

variable {symbol : Text} {k k' : Kind} {n n' : Text}

theorem kind_of_head (h : k.text.head? = k'.text.head?) : k = k' := by
  revert h
  cases k <;> cases k' <;> decide

theorem wrapperName_inj : wrapperName symbol k n = wrapperName symbol k' n' ↔ k = k' ∧ n = n' := by
  constructor
  · intro h
    have hparts (x : Kind) (a : Text) :
        wrapperName symbol x a = symbol ++ ("__" ++ (x.text ++ ("_" ++ a))) := by simp [wrapperName]
    have hne (x : Kind) : x.text ≠ [] := by cases x <;> decide
    rw [hparts, hparts] at h
    have h := append_cancel_left (append_cancel_left h)
    have hhead := congrArg List.head? h
    rw [head?_append_of_ne_nil _ (hne k), head?_append_of_ne_nil _ (hne k')] at hhead
    obtain rfl := kind_of_head hhead
    exact ⟨rfl, append_cancel_left (append_cancel_left h)⟩
  · rintro ⟨rfl, rfl⟩
    rfl

theorem bodyName_inj {a b : Text} : bodyName a = bodyName b ↔ a = b :=
  append_left_inj _

theorem bodyName_wrapperName (symbol : Text) (k : Kind) (n : Text) :
    bodyName (wrapperName symbol k n) = wrapperName symbol k (bodyName n) := by
  simp [bodyName, wrapperName]

end

/-! ## The names of a script -/

namespace Module

variable {layout : Layout} {m : Module} {s : Script}

theorem script_declared (h : m.script layout = .ok s) :
    List.Forall₂ (fun x d => d.functionNames = declaredNames (layout.symbol m.file) x) m.declared
      s.definitions := by
  obtain ⟨workflows, hw, hs⟩ := script_spec h
  rw [declared, hs]
  refine rel_append (rel_append ?_ ?_) ?_
  · exact forall₂_map_left_iff.mpr (forall₂_map_right_iff.mpr (forall₂_same.mpr fun r _ => rfl))
  · exact forall₂_map_left_iff.mpr (forall₂_map_right_iff.mpr (forall₂_same.mpr fun r _ => rfl))
  · refine forall₂_map_left_iff.mpr (hw.imp fun w d hd => ?_)
    obtain ⟨body, -, hd⟩ := of_bind_ok hd
    cases hd
    rfl

theorem functionNames_eq (h : m.script layout = .ok s) :
    s.functionNames = m.declared.flatMap (declaredNames (layout.symbol m.file)) := by
  have hall := script_declared h
  rw [Script.functionNames]
  generalize m.declared = xs at hall ⊢
  generalize s.definitions = ds at hall ⊢
  induction hall with
  | nil => rfl
  | cons hd _ ih => rw [flatMap_cons, flatMap_cons, hd, ih]

theorem mem_bareNames {xs : List (Kind × Text)} {f : Text} :
    f ∈ xs.flatMap bareNames ↔ (.function, f) ∈ xs := by
  simp [bareNames]

theorem nodup_bareNames {xs : List (Kind × Text)} (h : xs.Nodup) : (xs.flatMap bareNames).Nodup := by
  refine nodup_flatMap.mpr ⟨fun x _ => ?_, h.imp fun {x y} hne f hx hy => hne ?_⟩
  · unfold bareNames
    split <;> simp
  · simp only [bareNames, mem_ite_nil_right, mem_singleton] at hx hy
    exact Prod.ext (hx.1.trans hy.1.symm) (hx.2.symm.trans hy.2)

theorem nodup_declaredNames_iff (m : Module) (symbol : Text) :
    (m.declared.flatMap (declaredNames symbol)).Nodup ↔ m.Apart symbol := by
  have hwrapper : Function.Injective fun x : Kind × Text => wrapperName symbol x.1 x.2 := fun x y h =>
    Prod.ext (wrapperName_inj.mp h).1 (wrapperName_inj.mp h).2
  have hbody : Function.Injective fun x : Kind × Text => bodyName (wrapperName symbol x.1 x.2) := fun x y h =>
    hwrapper (bodyName_inj.mp h)
  have hperm : (m.declared.map (fun x => bodyName (wrapperName symbol x.1 x.2)) ++
      (m.declared.map (fun x => wrapperName symbol x.1 x.2) ++ m.declared.flatMap bareNames)).Perm
        (m.declared.flatMap (declaredNames symbol)) :=
    ((map_append_flatMap_perm _ _ _).append_left _).trans (map_append_flatMap_perm _ _ _)
  rw [← hperm.nodup_iff, nodup_append, nodup_append, nodup_map_iff hbody,
    nodup_map_iff hwrapper]
  constructor
  · rintro ⟨honce, ⟨-, -, hbare⟩, hbodies⟩
    refine ⟨honce, fun k n hn hb => ?_, fun f hf k n hn => ⟨?_, ?_⟩⟩
    · exact hbodies _ (mem_map_of_mem hn) _ (mem_append_left _ (mem_map_of_mem hb))
        (bodyName_wrapperName symbol k n)
    · rintro rfl
      exact hbodies _ (mem_map_of_mem hn) _ (mem_append_right _ (mem_bareNames.mpr hf)) rfl
    · rintro rfl
      exact hbare _ (mem_map_of_mem hn) _ (mem_bareNames.mpr hf) rfl
  · intro h
    refine ⟨h.once, ⟨h.once, nodup_bareNames h.once, fun a ha b hb => ?_⟩, fun a ha b hb => ?_⟩
    · obtain ⟨⟨k, n⟩, hn, rfl⟩ := mem_map.mp ha
      exact (h.bare b (mem_bareNames.mp hb) k n hn).2.symm
    · obtain ⟨⟨k, n⟩, hn, rfl⟩ := mem_map.mp ha
      rcases mem_append.mp hb with hb | hb
      · obtain ⟨⟨k', n'⟩, hn', rfl⟩ := mem_map.mp hb
        intro he
        rw [bodyName_wrapperName] at he
        obtain ⟨rfl, rfl⟩ := wrapperName_inj.mp he
        exact h.bodies k n hn hn'
      · exact (h.bare b (mem_bareNames.mp hb) k n hn).1.symm

/-! ## What the shell keeps -/

theorem kept_of_nodup (h : s.functionNames.Nodup) {d : Definition} (hd : d ∈ s.definitions) {name : Text}
    (hname : name ∈ d.functionNames) : s.kept name = some d := by
  obtain ⟨-, hpairs⟩ := nodup_flatMap.mp h
  have : Std.Symm (Function.onFun List.Disjoint Definition.functionNames) :=
    ⟨fun _ _ hd _ hx hy => hd hy hx⟩
  cases hkept : s.kept name with
  | none =>
    have := find?_eq_none.mp hkept d (by simpa using hd)
    simp [hname] at this
  | some d' =>
    have hd' : d' ∈ s.definitions := by simpa using mem_of_find?_eq_some hkept
    have hname' : name ∈ d'.functionNames := by simpa using find?_some hkept
    by_contra hne
    exact hpairs.forall hd hd' (fun he => hne (congrArg some he.symm)) hname hname'

theorem find?_of_forall₂ {α β : Type} {R : α → β → Prop} {p : α → Bool} {q : β → Bool} {xs : List α}
    {ys : List β} (h : List.Forall₂ R xs ys) (hpq : ∀ x y, R x y → p x = q y) {x : α}
    (hx : xs.find? p = some x) : ∃ y, ys.find? q = some y ∧ R x y := by
  induction h with
  | nil => cases hx
  | @cons a b xs ys hab _ ih =>
    rw [find?_cons] at hx ⊢
    rw [← hpq a b hab]
    split at hx
    · cases hx
      exact ⟨b, rfl, hab⟩
    · exact ih hx

theorem mem_functionNames_workflow {v : Workflow} {d : Definition}
    (hd : m.workflowDefinition layout v = .ok d) {n : Text} :
    wrapperName (layout.symbol m.file) .workflow n ∈ d.functionNames ↔ n = bodyName v.name ∨ n = v.name := by
  obtain ⟨body, -, hd⟩ := of_bind_ok hd
  cases hd
  simp [Definition.functionNames, bodyName_wrapperName, wrapperName_inj]

/-- If the workflows that define a function are those of one name, the shell keeps the last of them. -/
theorem kept_last (h : m.script layout = .ok s) {n : Text} {w : Workflow}
    (hw : m.workflows.reverse.find? (·.name = w.name) = some w)
    (hn : ∀ v ∈ m.workflows, (n = bodyName v.name ∨ n = v.name) ↔ v.name = w.name) :
    ∃ d, m.workflowDefinition layout w = .ok d ∧
      s.kept (wrapperName (layout.symbol m.file) .workflow n) = some d := by
  obtain ⟨workflows, hall, hs⟩ := script_spec h
  have hall := forall₂_reverse_iff.mpr
    ((forall₂_and_left (p := (· ∈ m.workflows)) _ _).mpr ⟨fun _ hv => hv, hall⟩)
  obtain ⟨d, hfind, -, hd⟩ := find?_of_forall₂ hall
    (q := fun d => wrapperName (layout.symbol m.file) .workflow n ∈ d.functionNames)
    (fun v d hv => decide_eq_decide.mpr ((mem_functionNames_workflow hv.2).trans (hn v hv.1)).symm) hw
  refine ⟨d, hd, ?_⟩
  rw [Script.kept, hs, reverse_append, find?_append, hfind]
  rfl

/-- Of the workflows of one name the shell runs the last, if no workflow has the name of another's body. -/
theorem runs_last (h : m.script layout = .ok s)
    (hbodies : ∀ v ∈ m.workflows, ∀ w ∈ m.workflows, w.name ≠ bodyName v.name) {w : Workflow}
    (hw : m.workflows.reverse.find? (·.name = w.name) = some w) : s.Runs layout m w := by
  have hmem : w ∈ m.workflows := by simpa using mem_of_find?_eq_some hw
  obtain ⟨d, hd, hwrapper⟩ := kept_last (n := w.name) h hw fun v hv => by
    simp [hbodies v hv w hmem, eq_comm]
  obtain ⟨d', hd', hbody⟩ := kept_last (n := bodyName w.name) h hw fun v hv => by
    simp [bodyName_inj, (hbodies w hmem v hv).symm, eq_comm]
  obtain rfl : d = d' := Except.ok.inj (hd.symm.trans hd')
  exact ⟨d, hd, hwrapper, by rw [bodyName_wrapperName, hbody]⟩

theorem find?_reverse_of_once (h : m.declared.Nodup) {name : Text} {w : Workflow}
    (hw : m.workflow? name = some w) : m.workflows.reverse.find? (·.name = w.name) = some w := by
  have hnames : (m.workflows.map fun w => (Kind.workflow, w.name)).Nodup :=
    h.sublist (sublist_append_right _ _)
  have hmem : w ∈ m.workflows := mem_of_find?_eq_some hw
  cases hfind : m.workflows.reverse.find? (·.name = w.name) with
  | none =>
    have := find?_eq_none.mp hfind w (by simpa using hmem)
    simp at this
  | some v =>
    have hv : v ∈ m.workflows := by simpa using mem_of_find?_eq_some hfind
    have hname : v.name = w.name := by simpa using find?_some hfind
    exact congrArg some (inj_on_of_nodup_map hnames hv hmem (by rw [hname]))

theorem Apart.bodies_workflow {symbol : Text} (h : m.Apart symbol) :
    ∀ v ∈ m.workflows, ∀ w ∈ m.workflows, w.name ≠ bodyName v.name := by
  have hmem {w : Workflow} (hw : w ∈ m.workflows) : (.workflow, w.name) ∈ m.declared :=
    mem_append_right _ (mem_map_of_mem hw)
  intro v hv w hw he
  exact h.bodies .workflow v.name (hmem hv) (he ▸ hmem hw)

/-- The functions of a script have different names just if the declarations are apart. Then each definition
is kept for each of its names, and the shell runs the workflow that looking up its name finds. Otherwise it
runs the last workflow of a name. -/
theorem functions_of_script (h : m.script layout = .ok s) :
    (s.functionNames.Nodup ↔ m.Apart (layout.symbol m.file)) ∧
    (m.Apart (layout.symbol m.file) →
      (∀ d ∈ s.definitions, ∀ name ∈ d.functionNames, s.kept name = some d) ∧
      ∀ name w, m.workflow? name = some w → s.Runs layout m w) ∧
    ((∀ v ∈ m.workflows, ∀ w ∈ m.workflows, w.name ≠ bodyName v.name) →
      ∀ w, m.workflows.reverse.find? (·.name = w.name) = some w → s.Runs layout m w) := by
  have hiff : s.functionNames.Nodup ↔ m.Apart (layout.symbol m.file) := by
    rw [functionNames_eq h]
    exact nodup_declaredNames_iff m _
  refine ⟨hiff, fun hapart => ⟨fun d hd name hname => ?_, fun name w hw => ?_⟩, fun hbodies w hw => ?_⟩
  · exact kept_of_nodup (hiff.mpr hapart) hd hname
  · exact runs_last h hapart.bodies_workflow (find?_reverse_of_once hapart.once hw)
  · exact runs_last h hbodies hw

/-- Two workflows of one name, and one that runs them. -/
def repeated : Module :=
  ⟨"/main.jph", [], [], [], [],
    [⟨"default", [], [.run ⟨"a", ⟨2, 3⟩⟩], ⟨1, 1⟩⟩,
      ⟨"a", [], [.shell "echo one" ⟨5, 1⟩], ⟨4, 1⟩⟩,
      ⟨"a", [], [.shell "echo two" ⟨8, 1⟩], ⟨7, 1⟩⟩]⟩

/-- The module is accepted, its functions are defined twice, and the shell runs another workflow than the one
that is found. -/
theorem functions_of_repeated :
    Module.parse "/main.jph" ("workflow default \x7b\n  run a\n\x7d\nworkflow a \x7b\n  echo one\n\x7d\n" ++
      "workflow a \x7b\n  echo two\n\x7d\n") = .ok repeated ∧
    (∀ t, repeated.validate t = .ok ()) ∧
    ∃ s, repeated.script ⟨"/", "/"⟩ = .ok s ∧ ¬ s.functionNames.Nodup ∧
      repeated.workflow? "a" = some ⟨"a", [], [.shell "echo one" ⟨5, 1⟩], ⟨4, 1⟩⟩ ∧
      s.Runs ⟨"/", "/"⟩ repeated ⟨"a", [], [.shell "echo two" ⟨8, 1⟩], ⟨7, 1⟩⟩ := by
  obtain ⟨s, hs⟩ : ∃ s, repeated.script ⟨"/", "/"⟩ = .ok s := ⟨_, rfl⟩
  obtain ⟨hiff, -, hlast⟩ := functions_of_script hs
  refine ⟨by decide, fun t => rfl, s, hs, fun hnodup => ?_, by decide, ?_⟩
  · exact absurd (hiff.mp hnodup).once (by decide)
  · exact hlast (by decide) _ (by decide)

end Module

end Runbook
