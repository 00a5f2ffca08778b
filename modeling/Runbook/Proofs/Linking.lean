import Runbook.Proofs.Lines
import Runbook.Proofs.Path
import Runbook.Proofs.Validation
import Runbook.Script

/-!
# Linking

A reference becomes a call of a function by name. The called module may be compiled in another run, from a
differently written path, and still defines that function: validation and code generation find the same file
behind an alias, and both compute the same symbol.
-/

open List

namespace Runbook
open Layout Runbook.Module

/-! ## Lines of a printed script -/

namespace Text

theorem mem_intercalate {sep t : Text} {parts : List Text} {c : Char} (ht : t ∈ parts) (hc : c ∈ t) :
    c ∈ sep.intercalate parts := by
  induction parts with
  | nil => simp at ht
  | cons u rest ih =>
    by_cases hr : rest = []
    · subst hr
      rw [mem_singleton.mp ht] at hc
      rwa [intercalate_singleton]
    · rw [intercalate_cons_of_ne_nil hr]
      rcases mem_cons.mp ht with rfl | ht
      · simp [hc]
      · simp [ih ht]

/-- The lines stand in the text one below the other, from the start of a line to the end of one. -/
def HasLines (t : Text) (ls : List Text) : Prop :=
  ∃ before after, t = before ++ unlines ls ++ after ∧
    (before = [] ∨ before.getLast? = some '\n') ∧ (after = [] ∨ after.head? = some '\n')

theorem hasLines_trimEnd {above ls below : List Text} (hl : ls ≠ []) {l : Text} (hm : l ∈ below)
    {c : Char} (hc : c ∈ l) (hb : isBlank c = false) :
    HasLines (trimEnd (unlines (above ++ ls ++ below))) ls := by
  have hbelow : below ≠ [] := ne_nil_of_mem hm
  have htail : trimEnd (unlines below) ≠ [] := trimEnd_ne_nil (mem_intercalate hm hc) hb
  have hend : trimEnd (['\n'] ++ unlines below) = '\n' :: trimEnd (unlines below) := trimEnd_append htail
  have hcut : trimEnd (unlines (ls ++ below)) = unlines ls ++ '\n' :: trimEnd (unlines below) := by
    rw [unlines, intercalate_append hl hbelow, List.append_assoc, trimEnd_append (by rw [← unlines, hend]; simp),
      ← unlines, ← unlines, hend]
  have hmore : trimEnd (unlines (ls ++ below)) ≠ [] := by simp [hcut]
  rw [List.append_assoc]
  by_cases ha : above = []
  · subst ha
    exact ⟨[], '\n' :: trimEnd (unlines below), by simpa using hcut, by simp, by simp⟩
  · refine ⟨unlines above ++ ['\n'], '\n' :: trimEnd (unlines below), ?_, by simp, by simp⟩
    rw [unlines, intercalate_append ha (by simp [hl]), ← unlines, ← unlines, trimEnd_append hmore, hcut]
    simp

end Text

namespace Script

variable {s : Script} {d : Definition}

theorem lines_split (hd : d ∈ s.definitions) : ∃ above below, s.lines = above ++ d.lines ++ below := by
  obtain ⟨a, b, h⟩ := append_of_mem hd
  exact ⟨s.header ++ a.flatMap Definition.lines, b.flatMap Definition.lines, by simp [lines, h]⟩

theorem hasLines_wrapper (hd : d ∈ s.definitions) : s.text.HasLines [d.symbol ++ "() \x7b"] := by
  obtain ⟨above, below, h⟩ := lines_split hd
  have hs : s.lines = (above ++ (d.comments ++ functionLines (bodyName d.symbol)
      (d.body.flatMap Statement.lines))) ++ [d.symbol ++ "() \x7b"] ++
        ([d.stepLine, ['}'], []] ++ d.bareLines ++ below) := by
    simp [h, Definition.lines, functionLines]
  rw [text, hs]
  exact Text.hasLines_trimEnd (by simp) (l := ['}']) (by simp) (c := '}') (by simp) (by decide)

end Script

/-! ## Code generation -/

namespace Module

variable {layout : Layout} {m : Module} {s : Script}

theorem script_spec (h : m.script layout = .ok s) :
    ∃ workflows, List.Forall₂ (fun w d => m.workflowDefinition layout w = .ok d) m.workflows workflows ∧
      s.definitions = m.rules.map (m.routineDefinition layout .rule) ++
        m.functions.map (m.routineDefinition layout .function) ++ workflows := by
  obtain ⟨workflows, hw, h⟩ := of_bind_ok h
  cases h
  exact ⟨workflows, of_mapM_ok hw, rfl⟩

theorem script_header (h : m.script layout = .ok s) :
    s.guard = guardName (layout.symbol m.file) ∧
      s.imports = m.imports.map fun i =>
        layout.importPath m.file (importedFile layout.cwd m.file i.path) := by
  obtain ⟨workflows, -, h⟩ := of_bind_ok h
  cases h
  exact ⟨rfl, rfl⟩

theorem workflowDefinition_spec {w : Workflow} {d : Definition}
    (h : m.workflowDefinition layout w = .ok d) :
    d.symbol = wrapperName (layout.symbol m.file) .workflow w.name ∧
      ∃ body, List.Forall₂ (fun step st => m.statement layout step = .ok st) w.steps body ∧
        d.body = if body = [] then [.shell ":"] else body := by
  obtain ⟨body, hb, h⟩ := of_bind_ok h
  cases h
  exact ⟨rfl, body, of_mapM_ok hb, rfl⟩

theorem definition_of_declares (h : m.script layout = .ok s) {kind : Kind} {name : Text}
    (hd : m.declares kind name = true) :
    ∃ d ∈ s.definitions, d.symbol = wrapperName (layout.symbol m.file) kind name := by
  obtain ⟨workflows, hw, hs⟩ := script_spec h
  cases kind with
  | rule =>
    obtain ⟨r, hr, rfl⟩ : ∃ r ∈ m.rules, r.name = name := by simpa [declares] using hd
    exact ⟨m.routineDefinition layout .rule r, by simp [hs]; exact Or.inl ⟨r, hr, rfl⟩, rfl⟩
  | function =>
    obtain ⟨r, hr, rfl⟩ : ∃ r ∈ m.functions, r.name = name := by simpa [declares] using hd
    exact ⟨m.routineDefinition layout .function r, by simp [hs]; exact Or.inr (Or.inl ⟨r, hr, rfl⟩), rfl⟩
  | workflow =>
    obtain ⟨w, hm, rfl⟩ : ∃ w ∈ m.workflows, w.name = name := by simpa [declares] using hd
    obtain ⟨d, hd, hwd⟩ := exists_of_forall₂ hw hm
    exact ⟨d, by simp [hs, hd], (workflowDefinition_spec hwd).1⟩

theorem find_owner {t : FileTree} (h : Valid t m) {i : Import} (hi : i ∈ m.imports) :
    m.imports.reverse.find? (·.owner = i.owner) = some i := by
  cases hf : m.imports.reverse.find? (·.owner = i.owner) with
  | none =>
    have := find?_eq_none.mp hf i (by simpa using hi)
    simp at this
  | some j =>
    have hj : j ∈ m.imports := by simpa using mem_of_find?_eq_some hf
    have ho : j.owner = i.owner := by simpa using find?_some hf
    exact congrArg some (inj_on_of_nodup_map h.owners hj hi ho)

theorem ownerSymbol_eq {t : FileTree} (h : Valid t m) {i : Import} (hi : i ∈ m.imports) :
    m.ownerSymbol layout i.owner = layout.symbol (importedFile layout.cwd m.file i.path) := by
  simp only [ownerSymbol, find_owner h hi]

end Module

theorem Layout.parts_resolve (cwd root file : Path) :
    parts ⟨cwd, root.resolve cwd⟩ file = parts ⟨cwd, root⟩ file := by
  simp only [parts, Path.resolve_resolve]

theorem Layout.symbol_resolve (cwd root file : Path) :
    symbol ⟨cwd, root.resolve cwd⟩ file = symbol ⟨cwd, root⟩ file := by
  simp only [symbol, parts_resolve]

theorem Layout.importPath_resolve (cwd root importer imported : Path) :
    importPath ⟨cwd, root.resolve cwd⟩ importer imported =
      importPath ⟨cwd, root⟩ importer imported := by
  simp only [importPath, output, parts_resolve]

theorem FileTree.compile_spec {t : FileTree} {file root : Path} {s : Script}
    (h : t.compile file root = .ok s) :
    ∃ m, t.readModule (file.resolve t.cwd) = .ok m ∧ m.file = file.resolve t.cwd ∧ Valid t m ∧
      m.script ⟨t.cwd, root.resolve t.cwd⟩ = .ok s := by
  obtain ⟨m, hm, h⟩ := of_bind_ok h
  obtain ⟨_, hv, h⟩ := of_bind_ok h
  exact ⟨m, hm, file_of_readModule hm, valid_of_validate hv, h⟩

/-! ## Calls and definitions -/

/-- `function` is the wrapper of a declaration in `file`, and `file` defines it whenever it is compiled
with the same root, by whatever path. -/
structure Linked (t : FileTree) (root : Path) (kind : Kind) (name : Text) (file : Path)
    (function : Text) : Prop where
  normal : file.resolve t.cwd = file
  symbol : function = wrapperName (symbol ⟨t.cwd, root⟩ file) kind name
  declared : ∃ m, t.readModule file = .ok m ∧ m.declares kind name = true
  defined : ∀ p s, p.resolve t.cwd = file → t.compile p root = .ok s →
    s.text.HasLines [function ++ "() \x7b"]

theorem Linked.of_declares {t : FileTree} {root file : Path} {kind : Kind} {name : Text} {m : Module}
    (hf : file.resolve t.cwd = file) (hm : t.readModule file = .ok m) (hd : m.declares kind name = true) :
    Linked t root kind name file (wrapperName (Layout.symbol ⟨t.cwd, root⟩ file) kind name) := by
  refine ⟨hf, rfl, ⟨m, hm, hd⟩, fun p s hp hs => ?_⟩
  obtain ⟨n, hn, hfile, _, hscript⟩ := FileTree.compile_spec hs
  rw [hp, hm] at hn
  cases hn
  obtain ⟨d, hd, hsym⟩ := definition_of_declares hscript hd
  rw [hfile, hp, Layout.symbol_resolve] at hsym
  rw [← hsym]
  exact Script.hasLines_wrapper hd

/-- `function` is what a reference of the module means. -/
def LinksTo (t : FileTree) (root : Path) (m : Module) (kind : Kind) (r : Reference) (function : Text) :
    Prop :=
  match r.target with
  | some (.own name) => Linked t root kind name m.file function
  | some (.imported owner name) => ∃ i ∈ m.imports, i.owner = owner ∧
      Linked t root kind name (importedFile t.cwd m.file i.path) function
  | none => False

section

variable {t : FileTree} {root : Path} {m : Module}

theorem linksTo_of_callee (hv : Valid t m) (hfile : m.file.resolve t.cwd = m.file)
    (hm : t.readModule m.file = .ok m) {kind : Kind} {r : Reference} (hr : (kind, r) ∈ m.references)
    {f : Text} (h : m.callee ⟨t.cwd, root.resolve t.cwd⟩ kind r = .ok f) :
    LinksTo t root m kind r f := by
  obtain ⟨target, ht, hmeans⟩ := hv.references kind r hr
  rw [← Reference.target_iff] at ht
  cases target with
  | own name =>
    simp only [callee, ht, Except.ok.injEq, Layout.symbol_resolve] at h
    subst h
    simp only [LinksTo, ht]
    exact .of_declares hfile hm (declares_iff.mpr hmeans)
  | imported owner name =>
    obtain ⟨i, hi, rfl, n, hn, hd⟩ := hmeans
    simp only [callee, ht, Except.ok.injEq, ownerSymbol_eq hv hi,
      Layout.symbol_resolve] at h
    subst h
    simp only [LinksTo, ht]
    exact ⟨i, hi, rfl, .of_declares (Path.resolve_resolve ..) hn (declares_iff.mpr hd)⟩

theorem mem_references {w : Workflow} (hw : w ∈ m.workflows) {step : Step} (hs : step ∈ w.steps) :
    ∀ kr ∈ step.references, kr ∈ m.references := by
  intro kr hk
  exact mem_flatMap.mpr ⟨w, hw, mem_flatMap.mpr ⟨step, hs, hk⟩⟩

end

end Runbook
