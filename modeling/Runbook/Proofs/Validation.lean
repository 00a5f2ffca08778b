import Mathlib.Data.List.Induction
import Mathlib.Data.List.Nodup
import Runbook.Proofs.Reader
import Runbook.Proofs.Reference
import Runbook.Validation

/-!
# Validated modules

What a module has to satisfy is said apart from the checker, which accepts exactly these modules and reports
of any other what is wrong first.
-/

open List

namespace Runbook
open Import Reference

theorem FileTree.file_of_readModule {t : FileTree} {file : Path} {m : Module}
    (h : t.readModule file = .ok m) : m.file = file := by
  simp only [FileTree.readModule] at h
  split at h
  · cases h
  · exact Module.file_of_parse (of_mapError_ok h)

namespace Module

variable {imports : List Import} {e : CompileError} {scope : Scope}

/-! ## What is wanted -/

/-- The file behind an import. -/
abbrev fileOf (t : FileTree) (m : Module) (i : Import) : Path := importedFile t.cwd m.file i.path

/-- The imports are in order: their aliases differ, and in the file behind each there is a module. -/
structure Importable (t : FileTree) (m : Module) (imports : List Import) : Prop where
  owners : (imports.map owner).Nodup
  files : ∀ i ∈ imports, t.isFile (fileOf t m i) = true ∧
    ∃ n, t.readModule (fileOf t m i) = .ok n

def Declared (m : Module) (name : Text) : Kind → Prop
  | .rule => ∃ d ∈ m.rules, d.name = name
  | .function => ∃ d ∈ m.functions, d.name = name
  | .workflow => ∃ w ∈ m.workflows, w.name = name

/-- A target is a declaration of the module itself, or of the file behind one of its imports. -/
def Means (t : FileTree) (m : Module) (kind : Kind) : Target → Prop
  | .own name => Declared m name kind
  | .imported owner name => ∃ i ∈ m.imports, i.owner = owner ∧
      ∃ n, t.readModule (fileOf t m i) = .ok n ∧ Declared n name kind

def Resolves (t : FileTree) (m : Module) (kind : Kind) (r : Reference) : Prop :=
  ∃ target, r.Spells target ∧ Means t m kind target

/-- What a step refers to is there: rules behind `ensure` and in conditions, workflows behind `run`. -/
def StepResolves (t : FileTree) (m : Module) : Step → Prop
  | .ensure rule _ => Resolves t m .rule rule
  | .run workflow => Resolves t m .workflow workflow
  | .unlessRun rule workflow => Resolves t m .rule rule ∧ Resolves t m .workflow workflow
  | .unlessShell rule _ => Resolves t m .rule rule
  | .prompt .. | .shell .. => True

/-- What is known of a module once it has been validated. -/
structure Valid (t : FileTree) (m : Module) : Prop where
  owners : (m.imports.map owner).Nodup
  imports : ∀ i ∈ m.imports, t.isFile (fileOf t m i) = true ∧
    ∃ n, t.readModule (fileOf t m i) = .ok n
  steps : ∀ w ∈ m.workflows, ∀ step ∈ w.steps, StepResolves t m step

/-- What is wrong with an import behind others: its alias is taken, or else its file is missing, or else
the file cannot be read as text, or else the text is no module. -/
inductive ImportFault (t : FileTree) (m : Module) (before : List Import) (i : Import) : CompileError → Prop
  | duplicate (h : i.owner ∈ before.map owner) :
      ImportFault t m before i (.validation m.file i.loc (.duplicateOwner i.owner))
  | missing (hnew : i.owner ∉ before.map owner)
      (h : t.isFile (fileOf t m i) = false) :
      ImportFault t m before i (.importNotFound m.file i.loc i.owner (fileOf t m i))
  | unreadable {cause : FileError} (hnew : i.owner ∉ before.map owner)
      (hfile : t.isFile (fileOf t m i) = true)
      (h : t.readText (fileOf t m i) = .error cause) :
      ImportFault t m before i (.read (fileOf t m i) cause)
  | malformed {source : Text} {error : ParseError} (hnew : i.owner ∉ before.map owner)
      (hfile : t.isFile (fileOf t m i) = true)
      (ht : t.readText (fileOf t m i) = .ok source)
      (h : Module.parse (fileOf t m i) source = .error error) :
      ImportFault t m before i (.parse (fileOf t m i) error)

/-- What is wrong with a reference once the imports are in order. -/
inductive ReferenceFault (t : FileTree) (m : Module) (kind : Kind) (r : Reference) : CompileError → Prop
  | malformed (h : ∀ target, ¬ r.Spells target) :
      ReferenceFault t m kind r (.validation m.file r.loc (.malformed kind r.value))
  | unknownName {name : Text} (h : r.Spells (.own name)) (hd : ¬ Declared m name kind) :
      ReferenceFault t m kind r (.validation m.file r.loc (.unknownName kind r.value))
  | unknownOwner {owner name : Text} (h : r.Spells (.imported owner name))
      (ho : owner ∉ m.imports.map Import.owner) :
      ReferenceFault t m kind r (.validation m.file r.loc (.unknownOwner owner kind r.value))
  | unknownImported {name : Text} {i : Import} {n : Module} (hi : i ∈ m.imports)
      (h : r.Spells (.imported i.owner name))
      (hn : t.readModule (fileOf t m i) = .ok n) (hd : ¬ Declared n name kind) :
      ReferenceFault t m kind r (.validation m.file r.loc (.unknownImported kind r.value))

/-- What is wrong with a step. In a condition with a workflow the rule comes first. -/
inductive StepFault (t : FileTree) (m : Module) : Step → CompileError → Prop
  | ensure {rule : Reference} {args : Option Text} {e : CompileError}
      (h : ReferenceFault t m .rule rule e) : StepFault t m (.ensure rule args) e
  | run {workflow : Reference} {e : CompileError}
      (h : ReferenceFault t m .workflow workflow e) : StepFault t m (.run workflow) e
  | unlessRule {rule workflow : Reference} {e : CompileError}
      (h : ReferenceFault t m .rule rule e) : StepFault t m (.unlessRun rule workflow) e
  | unlessWorkflow {rule workflow : Reference} {e : CompileError} (hr : Resolves t m .rule rule)
      (h : ReferenceFault t m .workflow workflow e) : StepFault t m (.unlessRun rule workflow) e
  | unlessShell {rule : Reference} {commands : List ShellLine} {e : CompileError}
      (h : ReferenceFault t m .rule rule e) : StepFault t m (.unlessShell rule commands) e

/-- The first fault of a module: of its imports in order, and if there is none, of the steps of its workflows,
both in order. -/
inductive FirstFault (t : FileTree) (m : Module) : CompileError → Prop
  | ofImport {before after : List Import} {i : Import} {e : CompileError}
      (hs : m.imports = before ++ i :: after) (hb : Importable t m before)
      (hf : ImportFault t m before i e) : FirstFault t m e
  | ofStep {earlier later : List Workflow} {w : Workflow} {before after : List Step} {step : Step}
      {e : CompileError} (hi : Importable t m m.imports) (hw : m.workflows = earlier ++ w :: later)
      (he : ∀ v ∈ earlier, ∀ s ∈ v.steps, StepResolves t m s) (hs : w.steps = before ++ step :: after)
      (hb : ∀ s ∈ before, StepResolves t m s) (hf : StepFault t m step e) : FirstFault t m e

variable {t : FileTree} {m : Module} {kind : Kind} {r : Reference}

/-! ## Imports -/

/-- The modules read so far are what the files hold. -/
def Known (t : FileTree) (known : List (Path × Module)) : Prop :=
  ∀ file n, known.lookup file = some n → t.readModule file = .ok n

theorem known_nil (t : FileTree) : Known t [] := by simp [Known]

theorem Known.cons {known : List (Path × Module)} (h : Known t known) {file : Path} {n : Module}
    (hn : t.readModule file = .ok n) : Known t ((file, n) :: known) := by
  intro g k hk
  rw [lookup_cons] at hk
  split at hk
  · rename_i hg
    obtain rfl := eq_of_beq hg
    cases hk
    exact hn
  · exact h g k hk

theorem loadImports_cons {known : List (Path × Module)} (hk : Known t known) (scope : Scope) (i : Import)
    (rest : List Import) :
    loadImports t m scope known (i :: rest) =
      let file := importedFile t.cwd m.file i.path
      if (scope.lookup i.owner).isSome then .error (.validation m.file i.loc (.duplicateOwner i.owner))
      else if !t.isFile file then .error (.importNotFound m.file i.loc i.owner file)
      else t.readModule file >>= fun n => loadImports t m (scope ++ [(i.owner, n)]) [] rest := by
  induction rest generalizing scope known i with
  | nil =>
    simp only [loadImports]
    split
    · rfl
    split
    · rfl
    split
    · rename_i n hl
      rw [hk _ _ hl]
      rfl
    · rfl
  | cons j rest ih =>
    have hrest : ∀ known, Known t known → ∀ scope,
        loadImports t m scope known (j :: rest) = loadImports t m scope [] (j :: rest) := by
      intro known hk scope
      rw [ih hk, ih (known_nil t)]
    rw [loadImports]
    simp only
    split
    · rfl
    split
    · rfl
    split
    · rename_i n hl
      rw [hk _ _ hl, hrest _ hk]
      rfl
    · cases hn : t.readModule (fileOf t m i) with
      | error e => rfl
      | ok n => exact hrest _ (hk.cons hn) _

theorem loadImports_append (scope : Scope) {rest : List Import} {loaded : List Module}
    (hall : List.Forall₂ (fun i n => t.isFile (fileOf t m i) = true ∧
      t.readModule (fileOf t m i) = .ok n) imports loaded)
    (hn : (scope.map Prod.fst ++ imports.map owner).Nodup) :
    loadImports t m scope [] (imports ++ rest) =
      loadImports t m (scope ++ List.zipWith (fun i n => (i.owner, n)) imports loaded) [] rest := by
  induction hall generalizing scope with
  | nil => simp
  | @cons i n imports loaded hr _ ih =>
    obtain ⟨hfile, hread⟩ := hr
    have hnew : scope.lookup i.owner = none := by
      rw [lookup_eq_none_iff]
      intro entry hm
      have hne := (nodup_append.mp hn).2.2 entry.1 (mem_map_of_mem hm) i.owner (by simp)
      simpa using fun he => hne he.symm
    rw [cons_append, loadImports_cons (known_nil t)]
    simp only [hnew, hfile, hread, Option.isSome_none, Bool.not_true, Bool.false_eq_true, ↓reduceIte]
    have hstep := ih (scope ++ [(i.owner, n)]) (by simpa using hn)
    rw [List.append_assoc, singleton_append] at hstep
    exact hstep

theorem Importable.loaded (h : Importable t m imports) :
    ∃ loaded, List.Forall₂ (fun i n => t.isFile (fileOf t m i) = true ∧
      t.readModule (fileOf t m i) = .ok n) imports loaded := by
  refine exists_forall₂ fun i hi => ?_
  obtain ⟨hfile, n, hn⟩ := h.files i hi
  exact ⟨n, hfile, hn⟩

theorem owners_zipWith {R : Import → Module → Prop} {loaded : List Module} (h : List.Forall₂ R imports loaded) :
    (List.zipWith (fun i n => (i.owner, n)) imports loaded).map Prod.fst = imports.map owner := by
  induction h with
  | nil => rfl
  | cons _ _ ih => rw [zipWith_cons_cons, map_cons, map_cons, ih]

theorem loadImports_of_fault {before rest : List Import} {i : Import}
    (hs : scope.map Prod.fst = before.map owner) (hf : ImportFault t m before i e) :
    loadImports t m scope [] (i :: rest) = .error e := by
  have hknown : (scope.lookup i.owner).isSome = true ↔ i.owner ∈ before.map owner := by
    simp only [← hs, lookup_isSome_iff, mem_map, beq_iff_eq]
    exact exists_congr fun entry => and_congr_right fun _ => eq_comm
  rw [loadImports_cons (known_nil t)]
  cases hf with
  | duplicate h => simp [hknown.mpr h]
  | missing hnew h => simp [hknown.not.mpr hnew, h]
  | unreadable hnew hfile h =>
    simp [hknown.not.mpr hnew, hfile, FileTree.readModule, h, bind, Except.bind]
  | malformed hnew hfile ht h =>
    simp [hknown.not.mpr hnew, hfile, FileTree.readModule, ht, h, bind, Except.bind, Except.mapError]

theorem importFault_or (t : FileTree) (m : Module) (before : List Import) (i : Import) :
    (i.owner ∉ before.map owner ∧ t.isFile (fileOf t m i) = true ∧
      ∃ n, t.readModule (fileOf t m i) = .ok n) ∨
      ∃ e, ImportFault t m before i e := by
  by_cases hnew : i.owner ∈ before.map owner
  · exact Or.inr ⟨_, .duplicate hnew⟩
  cases hfile : t.isFile (fileOf t m i) with
  | false => exact Or.inr ⟨_, .missing hnew hfile⟩
  | true =>
    cases ht : t.readText (fileOf t m i) with
    | error cause => exact Or.inr ⟨_, .unreadable hnew hfile ht⟩
    | ok source =>
      cases hp : Module.parse (fileOf t m i) source with
      | error error => exact Or.inr ⟨_, .malformed hnew hfile ht hp⟩
      | ok n => exact Or.inl ⟨hnew, rfl, n, by simp [FileTree.readModule, ht, hp, Except.mapError]⟩

theorem importable_or (t : FileTree) (m : Module) (imports : List Import) :
    Importable t m imports ∨ ∃ before i after e, imports = before ++ i :: after ∧
      Importable t m before ∧ ImportFault t m before i e := by
  induction imports using List.reverseRecOn with
  | nil => exact Or.inl ⟨nodup_nil, by simp⟩
  | append_singleton init i ih =>
    rcases ih with hinit | ⟨before, j, after, e, rfl, hb, hf⟩
    · rcases importFault_or t m init i with ⟨hnew, hi⟩ | ⟨e, hf⟩
      · refine Or.inl ⟨?_, forall_mem_append.mpr ⟨hinit.files, forall_mem_singleton.mpr hi⟩⟩
        rw [map_append, map_singleton, ← concat_eq_append]
        exact hinit.owners.concat hnew
      · exact Or.inr ⟨init, i, [], e, rfl, hinit, hf⟩
    · exact Or.inr ⟨before, j, after ++ [i], e, by simp, hb, hf⟩

/-! ## References -/

/-- The scope holds the module behind each import, and nothing else. -/
structure Scoped (t : FileTree) (m : Module) (scope : Scope) : Prop where
  known : ∀ i ∈ m.imports, ∀ n, t.readModule (fileOf t m i) = .ok n →
    scope.lookup i.owner = some n
  unknown : ∀ owner, owner ∉ m.imports.map Import.owner → scope.lookup owner = none

theorem lookup_zipWith {loaded : List Module} {R : Import → Module → Prop} (h : List.Forall₂ R imports loaded)
    (hn : (imports.map Import.owner).Nodup) {i : Import} (hi : i ∈ imports) :
    ∃ n, (List.zipWith (fun i n => (i.owner, n)) imports loaded).lookup i.owner = some n ∧ R i n := by
  induction h with
  | nil => simp at hi
  | @cons j n imports loaded hr _ ih =>
    obtain ⟨hj, hn⟩ := nodup_cons.mp hn
    rw [zipWith_cons_cons, lookup_cons]
    rcases mem_cons.mp hi with rfl | hi
    · exact ⟨n, by simp, hr⟩
    · have hne : (i.owner == j.owner) = false := by
        rw [beq_eq_false_iff_ne]
        intro he
        exact hj (he ▸ mem_map_of_mem hi)
      rw [hne]
      exact ih hn hi

theorem Importable.scoped (h : Importable t m m.imports) :
    ∃ scope, (∀ rest, loadImports t m [] [] (m.imports ++ rest) = loadImports t m scope [] rest) ∧
      Scoped t m scope := by
  obtain ⟨loaded, hall⟩ := h.loaded
  refine ⟨List.zipWith (fun i n => (i.owner, n)) m.imports loaded, fun rest => ?_, ?_, ?_⟩
  · exact loadImports_append [] hall h.owners
  · intro i hi n hn
    obtain ⟨n', hl, -, hn'⟩ := lookup_zipWith hall h.owners hi
    rw [hn] at hn'
    cases hn'
    exact hl
  · intro owner ho
    rw [lookup_eq_none_iff]
    intro entry hm
    have hentry : entry.1 ∈ m.imports.map Import.owner := by
      rw [← owners_zipWith hall]
      exact mem_map_of_mem hm
    rw [bne_iff_ne]
    rintro rfl
    exact ho hentry

theorem declares_iff {name : Text} : m.declares kind name = true ↔ Declared m name kind := by
  cases kind <;> simp [declares, Declared]

theorem checkReference_of_resolves (hs : Scoped t m scope)
    (h : Resolves t m kind r) : m.checkReference scope kind r = none := by
  obtain ⟨target, ht, hm⟩ := h
  rw [← target_iff] at ht
  cases target with
  | own name => simp [checkReference, ht, declares_iff.mpr hm]
  | imported owner name =>
    obtain ⟨i, hi, rfl, n, hn, hd⟩ := hm
    simp [checkReference, ht, hs.known i hi n hn, declares_iff.mpr hd]

theorem checkReferences_of_fault (hs : Scoped t m scope)
    (hf : ReferenceFault t m kind r e) (after : List (Kind × Reference)) :
    checkReferences m scope ((kind, r) :: after) = .error e := by
  cases hf with
  | malformed h =>
    have ht : r.target = none :=
      Option.eq_none_iff_forall_ne_some.mpr fun target ht => h target (target_iff.mp ht)
    simp [checkReferences, checkReference, ht]
  | unknownName h hd =>
    simp [checkReferences, checkReference, target_iff.mpr h, declares_iff.not.mpr hd]
  | unknownOwner h ho => simp [checkReferences, checkReference, target_iff.mpr h, hs.unknown _ ho]
  | unknownImported hi h hn hd =>
    simp [checkReferences, checkReference, target_iff.mpr h, hs.known _ hi _ hn,
      declares_iff.not.mpr hd]

theorem checkReferences_append (hs : Scoped t m scope) {before : List (Kind × Reference)}
    (hb : ∀ k q, (k, q) ∈ before → Resolves t m k q) (after : List (Kind × Reference)) :
    checkReferences m scope (before ++ after) = checkReferences m scope after := by
  induction before with
  | nil => rfl
  | cons head before ih =>
    obtain ⟨k, q⟩ := head
    rw [cons_append, checkReferences, checkReference_of_resolves hs (hb k q (by simp))]
    exact ih fun k' q' hq => hb k' q' (by simp [hq])

theorem referenceFault_or (hi : Importable t m m.imports) (kind : Kind) (r : Reference) :
    Resolves t m kind r ∨ ∃ e, ReferenceFault t m kind r e := by
  by_cases hs : ∃ target, r.Spells target
  · obtain ⟨target, ht⟩ := hs
    cases target with
    | own name =>
      by_cases hd : Declared m name kind
      · exact Or.inl ⟨_, ht, hd⟩
      · exact Or.inr ⟨_, .unknownName ht hd⟩
    | imported owner name =>
      by_cases ho : owner ∈ m.imports.map Import.owner
      · obtain ⟨i, him, rfl⟩ := mem_map.mp ho
        obtain ⟨-, n, hn⟩ := hi.files i him
        by_cases hd : Declared n name kind
        · exact Or.inl ⟨_, ht, i, him, rfl, n, hn, hd⟩
        · exact Or.inr ⟨_, .unknownImported him ht hn hd⟩
      · exact Or.inr ⟨_, .unknownOwner ht ho⟩
  · exact Or.inr ⟨_, .malformed (not_exists.mp hs)⟩

/-! ## Steps -/

theorem stepResolves_iff {step : Step} :
    StepResolves t m step ↔ ∀ kind r, (kind, r) ∈ step.references → Resolves t m kind r := by
  cases step <;> simp [StepResolves, Step.references, or_imp, forall_and]

theorem stepFault_or (hi : Importable t m m.imports) (step : Step) :
    StepResolves t m step ∨ ∃ e, StepFault t m step e := by
  cases step with
  | ensure rule args => exact (referenceFault_or hi .rule rule).imp_right fun ⟨e, h⟩ => ⟨e, .ensure h⟩
  | run workflow => exact (referenceFault_or hi .workflow workflow).imp_right fun ⟨e, h⟩ => ⟨e, .run h⟩
  | unlessRun rule workflow =>
    rcases referenceFault_or hi .rule rule with hr | ⟨e, h⟩
    · rcases referenceFault_or hi .workflow workflow with hw | ⟨e, h⟩
      · exact .inl ⟨hr, hw⟩
      · exact .inr ⟨e, .unlessWorkflow hr h⟩
    · exact .inr ⟨e, .unlessRule h⟩
  | unlessShell rule commands =>
    exact (referenceFault_or hi .rule rule).imp_right fun ⟨e, h⟩ => ⟨e, .unlessShell h⟩
  | prompt text loc => exact .inl trivial
  | shell command => exact .inl trivial

theorem checkReferences_of_stepFault (hs : Scoped t m scope) {step : Step} (hf : StepFault t m step e)
    (after : List (Kind × Reference)) : checkReferences m scope (step.references ++ after) = .error e := by
  cases hf with
  | ensure h => exact checkReferences_of_fault hs h _
  | run h => exact checkReferences_of_fault hs h _
  | unlessRule h => exact checkReferences_of_fault hs h _
  | @unlessWorkflow rule workflow e hr h =>
    have hrule : ∀ k q, (k, q) ∈ [(Kind.rule, rule)] → Resolves t m k q := by simp [hr]
    exact (checkReferences_append hs hrule _).trans (checkReferences_of_fault hs h _)
  | unlessShell h => exact checkReferences_of_fault hs h _

/-- Of elements that are good or bad, all are good, or one of them is the first that is bad. -/
theorem all_or_first {α : Type} {good bad : α → Prop} (h : ∀ a, good a ∨ bad a) (as : List α) :
    (∀ a ∈ as, good a) ∨ ∃ before a after, as = before ++ a :: after ∧ (∀ b ∈ before, good b) ∧ bad a := by
  induction as with
  | nil => exact .inl (by simp)
  | cons a as ih =>
    rcases h a with hgood | hbad
    · rcases ih with hall | ⟨before, b, after, rfl, hbefore, hbad⟩
      · exact .inl (forall_mem_cons.mpr ⟨hgood, hall⟩)
      · exact .inr ⟨a :: before, b, after, rfl, forall_mem_cons.mpr ⟨hgood, hbefore⟩, hbad⟩
    · exact .inr ⟨[], a, as, rfl, by simp, hbad⟩

/-! ## Validation -/

theorem resolves_of_workflows {workflows : List Workflow}
    (h : ∀ w ∈ workflows, ∀ step ∈ w.steps, StepResolves t m step) :
    ∀ kind r, (kind, r) ∈ workflows.flatMap (·.steps.flatMap Step.references) → Resolves t m kind r := by
  intro kind r hr
  obtain ⟨w, hw, hr⟩ := mem_flatMap.mp hr
  obtain ⟨step, hstep, hr⟩ := mem_flatMap.mp hr
  exact stepResolves_iff.mp (h w hw step hstep) kind r hr

theorem Valid.references (h : Valid t m) : ∀ kind r, (kind, r) ∈ m.references → Resolves t m kind r :=
  resolves_of_workflows h.steps

theorem Valid.importable (h : Valid t m) : Importable t m m.imports := ⟨h.owners, h.imports⟩

theorem validate_of_valid (h : Valid t m) : m.validate t = .ok () := by
  obtain ⟨scope, hload, hs⟩ := h.importable.scoped
  have hscope : loadImports t m [] [] m.imports = .ok scope := by simpa [loadImports] using hload []
  have hrefs := checkReferences_append hs h.references []
  rw [append_nil] at hrefs
  simp only [validate, hscope, bind, Except.bind, hrefs, checkReferences]

theorem validate_of_fault (h : FirstFault t m e) : m.validate t = .error e := by
  cases h with
  | @ofImport before after i e hs hb hf =>
    obtain ⟨loaded, hall⟩ := hb.loaded
    have hload : loadImports t m [] [] m.imports = .error e := by
      rw [hs, loadImports_append [] hall hb.owners]
      exact loadImports_of_fault (owners_zipWith hall) hf
    simp only [validate, hload, bind, Except.bind]
  | @ofStep earlier later w before after step e hi hw he hs hb hf =>
    obtain ⟨scope, hload, hscoped⟩ := hi.scoped
    have hscope : loadImports t m [] [] m.imports = .ok scope := by simpa [loadImports] using hload []
    have hbefore : ∀ k q, (k, q) ∈ before.flatMap Step.references → Resolves t m k q := by
      intro k q hq
      obtain ⟨s, hsb, hq⟩ := mem_flatMap.mp hq
      exact stepResolves_iff.mp (hb s hsb) k q hq
    simp only [validate, hscope, bind, Except.bind, references, hw, hs, flatMap_append, flatMap_cons,
      List.append_assoc]
    rw [checkReferences_append hscoped (resolves_of_workflows he), checkReferences_append hscoped hbefore]
    exact checkReferences_of_stepFault hscoped hf _

theorem valid_or_fault (t : FileTree) (m : Module) : Valid t m ∨ ∃ e, FirstFault t m e := by
  rcases importable_or t m m.imports with hi | ⟨before, i, after, e, hs, hb, hf⟩
  · rcases all_or_first (fun w => all_or_first (stepFault_or hi) w.steps) m.workflows with
      hall | ⟨earlier, w, later, hw, he, before, step, after, hs, hb, e, hf⟩
    · exact Or.inl ⟨hi.owners, hi.files, hall⟩
    · exact Or.inr ⟨e, .ofStep hi hw he hs hb hf⟩
  · exact Or.inr ⟨e, .ofImport hs hb hf⟩

theorem valid_of_validate (h : m.validate t = .ok ()) : Valid t m := by
  rcases valid_or_fault t m with hv | ⟨e, hf⟩
  · exact hv
  · rw [validate_of_fault hf] at h
    cases h

/-- The checker accepts a module exactly if the aliases of its imports differ, the file behind every import
is there and holds a module, and the references of every step of a workflow name declarations of their kinds.
It refuses any other module with its first fault: imports in order, and then workflows and their steps in
order. -/
theorem validate_iff (t : FileTree) (m : Module) :
    (m.validate t = .ok () ↔ Valid t m) ∧ ∀ e, m.validate t = .error e ↔ FirstFault t m e := by
  refine ⟨⟨valid_of_validate, validate_of_valid⟩, fun e => ⟨fun h => ?_, validate_of_fault⟩⟩
  rcases valid_or_fault t m with hv | ⟨e', hf⟩
  · rw [validate_of_valid hv] at h
    cases h
  · rw [validate_of_fault hf] at h
    cases h
    exact hf

end Module

end Runbook
