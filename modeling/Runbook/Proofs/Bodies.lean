import Runbook.Proofs.Canonical
import Runbook.Proofs.StepNames

/-!
# Bodies with nothing to run

A function or a branch needs a command in its body. All have one, except workflows that hold comments only
and lines that start with the symbol of a module whose name begins a comment.
-/

open List

namespace Runbook
open Statement

/-! ## Lines with something to run -/

namespace Text

def isSpace (c : Char) : Bool := c == ' ' || c == '\t'

/-- A line that is neither blank nor a comment for the shell. -/
def isCommand (line : Text) : Bool := (line.dropWhile isSpace).head?.any (· ≠ '#')

/-- One of the lines that the text spans has something to run. -/
def runs (t : Text) : Bool := (t.splitOn '\n').any isCommand

theorem isCommand_cons {c : Char} (hc : isSpace c = false) (rest : Text) :
    isCommand (c :: rest) = decide (c ≠ '#') := by
  simp [isCommand, hc]

theorem runs_cons {c : Char} {rest piece : Text} {more : List Text} (hc : c ≠ '\n')
    (h : rest.splitOn '\n' = piece :: more) :
    runs (c :: rest) = (isCommand (c :: piece) || more.any isCommand) := by
  rw [runs, splitOn_cons_of_ne hc h, any_cons]

theorem runs_indent {blanks : Text} (h : blanks.all isSpace = true) (t : Text) : runs (blanks ++ t) = runs t := by
  induction blanks with
  | nil => rfl
  | cons c rest ih =>
    simp only [all_cons, Bool.and_eq_true] at h
    obtain ⟨piece, more, hp⟩ := exists_cons_of_ne_nil (splitOn_ne_nil '\n' (rest ++ t))
    have hne : c ≠ '\n' := by
      rintro rfl
      exact absurd h.1 (by decide)
    rw [← ih h.2, cons_append, runs_cons hne hp, runs, hp, any_cons]
    simp [isCommand, h.1]

theorem runs_of_head {c : Char} (hs : isSpace c = false) (hn : c ≠ '\n') (hc : c ≠ '#') (rest : Text) :
    runs (c :: rest) = true := by
  obtain ⟨piece, more, hp⟩ := exists_cons_of_ne_nil (splitOn_ne_nil '\n' rest)
  rw [runs_cons hn hp, isCommand_cons hs]
  simp [hc]

theorem runs_of_word {c : Char} (hs : isSpace c = false) (hn : c ≠ '\n') (hc : c ≠ '#') (rest : Text) :
    runs (' ' :: ' ' :: c :: rest) = true :=
  (runs_indent (by decide : ([' ', ' '] : Text).all isSpace = true) _).trans (runs_of_head hs hn hc rest)

theorem runs_of_clean {t : Text} (h : Clean t) : runs t = !isComment t := by
  obtain ⟨c, rest, rfl⟩ := exists_cons_of_ne_nil h.ne_nil
  have hblank := (trim_eq_self_iff.mp h.trim_eq).1 c rfl
  have hs : isSpace c = false := by
    rw [← Bool.not_eq_true]
    intro hs
    rcases (by simpa [isSpace] using hs : c = ' ' ∨ c = '\t') with rfl | rfl <;>
      exact absurd hblank (by decide)
  have hline : List.splitOn '\n' (c :: rest) = [c :: rest] := splitOn_eq_singleton h.lf_not_mem
  simp [runs, hline, isCommand_cons hs, isComment]

theorem isCommand_append_word (t rest : Text) : isCommand (t ++ '_' :: rest) = isCommand (t ++ ['_']) := by
  induction t with
  | nil => rfl
  | cons c t ih =>
    by_cases hc : isSpace c = true
    · simpa [isCommand, hc] using ih
    · simp [isCommand, hc]

theorem runs_append_word (t : Text) {rest : Text} (h : '\n' ∉ rest) :
    runs (t ++ '_' :: rest) = runs (t ++ ['_']) := by
  obtain ⟨before, last, hp⟩ := (eq_nil_or_concat (t.splitOn '\n')).resolve_left (splitOn_ne_nil _ t)
  rw [concat_eq_append] at hp
  have hline : List.splitOn '\n' ('_' :: rest) = ['_' :: rest] := splitOn_eq_singleton (by simpa using h)
  rw [runs, runs, splitOn_append hp hline, splitOn_append (b := ['_']) hp rfl, any_append, any_append]
  simp [isCommand_append_word last rest]

end Text

/-- What is written behind the symbol stands in a comment. -/
def Hidden (symbol : Text) : Prop := Text.runs (symbol ++ ['_']) = false

theorem runs_wrapperName (symbol : Text) (kind : Kind) {name rest : Text} (hname : '\n' ∉ name)
    (hrest : '\n' ∉ rest) : Text.runs (wrapperName symbol kind name ++ rest) = false ↔ Hidden symbol := by
  have hword : wrapperName symbol kind name ++ rest = symbol ++ '_' :: ('_' :: kind.text ++ '_' :: name ++ rest) := by
    simp [wrapperName]
  have hkind : '\n' ∉ kind.text := by cases kind <;> decide
  have hline : '\n' ∉ ('_' :: kind.text ++ '_' :: name ++ rest) := by simp [hkind, hname, hrest]
  rw [hword, Text.runs_append_word symbol hline]
  exact Iff.rfl

theorem hidden_iff {symbol : Text} {kind : Kind} {name : Text} (hname : '\n' ∉ name) :
    Text.runs (wrapperName symbol kind name) = false ↔ Hidden symbol := by
  have h := runs_wrapperName symbol kind hname (not_mem_nil (a := '\n'))
  rwa [append_nil] at h

theorem Statement.runs_only (t : Text) : [("  " : Text) ++ t].any Text.runs = Text.runs t := by
  rw [any_cons, any_nil, Bool.or_false]
  exact Text.runs_indent (by decide) t

theorem Statement.runs_first {c : Char} (hs : Text.isSpace c = false) (hn : c ≠ '\n') (hc : c ≠ '#') (rest : Text)
    (more : List Text) : ¬ ((' ' :: ' ' :: c :: rest) :: more).any Text.runs = false := by
  simp [Text.runs_of_word hs hn hc]

/-! ## Compound bodies -/

/-- The bodies of functions and branches in the lines of a definition. -/
inductive Definition.Body (d : Definition) : List Text → Prop
  | impl : d.Body (d.body.flatMap Statement.lines)
  | wrapper : d.Body [d.stepLine]
  | bare {name : Text} (h : d.bareName = some name) : d.Body [(" " : Text) ++ d.symbol ++ " \"$@\"; "]
  | branch {check : Text} {commands : List Text} (h : .unless check commands ∈ d.body) :
      d.Body ((orColon commands).map (("    " : Text) ++ ·))

/-- The body stands in the lines between what opens and what closes it. -/
inductive Enclosed (body : List Text) : List Text → Prop
  | function (above : List Text) (name : Text) (below : List Text) :
      Enclosed body (above ++ [name ++ "() \x7b"] ++ body ++ [['}']] ++ below)
  | oneLine (above : List Text) (name : Text) {text : Text} (below : List Text) (h : body = [text]) :
      Enclosed body (above ++ [name ++ "() \x7b" ++ text ++ "\x7d"] ++ below)
  | branch (above : List Text) (check : Text) (below : List Text) :
      Enclosed body (above ++ [("  if ! " : Text) ++ check ++ "; then"] ++ body ++ [("  fi" : Text)] ++ below)

theorem Enclosed.within {body lines : List Text} (h : Enclosed body lines) (above below : List Text) :
    Enclosed body (above ++ lines ++ below) := by
  cases h with
  | function a name b =>
    have hf : Enclosed body _ := .function (above ++ a) name (b ++ below)
    simpa using hf
  | oneLine a name b h =>
    have hf : Enclosed body _ := .oneLine (above ++ a) name (b ++ below) h
    simpa using hf
  | branch a check b =>
    have hf : Enclosed body _ := .branch (above ++ a) check (b ++ below)
    simpa using hf

theorem Definition.Body.enclosed {d : Definition} {body : List Text} (h : d.Body body) : Enclosed body d.lines := by
  cases h with
  | impl =>
    have hf : Enclosed (d.body.flatMap Statement.lines) _ := .function d.comments (bodyName d.symbol)
      ([[]] ++ functionLines d.symbol [d.stepLine] ++ d.bareLines)
    simpa [Definition.lines, functionLines] using hf
  | wrapper =>
    have hf : Enclosed [d.stepLine] _ := .function
      (d.comments ++ functionLines (bodyName d.symbol) (d.body.flatMap Statement.lines)) d.symbol
      ([[]] ++ d.bareLines)
    simpa [Definition.lines, functionLines] using hf
  | bare h =>
    rename_i name
    have hf := Enclosed.oneLine (d.comments ++ functionLines (bodyName d.symbol) (d.body.flatMap Statement.lines) ++
      functionLines d.symbol [d.stepLine]) name [[]] (Eq.refl [(" " : Text) ++ d.symbol ++ " \"$@\"; "])
    simpa [Definition.lines, bareLines, h] using hf
  | branch h =>
    rename_i check commands
    obtain ⟨before, after, hbody⟩ := append_of_mem h
    have hbranch : Enclosed ((orColon commands).map (("    " : Text) ++ ·)) _ := .branch [] check []
    have hf := hbranch.within
      (d.comments ++ [bodyName d.symbol ++ "() \x7b"] ++ before.flatMap Statement.lines)
      (after.flatMap Statement.lines ++ [['}'], []] ++ functionLines d.symbol [d.stepLine] ++ d.bareLines)
    simpa [Definition.lines, functionLines, hbody, Statement.lines] using hf

/-! ## What steps leave to run -/

namespace Module

/-- The symbol of the module that a reference means. -/
def calleeSymbol (layout : Layout) (m : Module) (r : Reference) : Text :=
  match r.target with
  | some (.imported owner _) => m.ownerSymbol layout owner
  | _ => layout.symbol m.file

variable {layout : Layout} {m : Module} {s : Script}

theorem callee_eq {kind : Kind} {r : Reference} {f : Text} (hr : isReference r.value = true)
    (h : m.callee layout kind r = .ok f) :
    ∃ name, '\n' ∉ name ∧ f = wrapperName (m.calleeSymbol layout r) kind name := by
  have hlf : '\n' ∉ r.value := (Text.Clean.of_isReference hr).lf_not_mem
  unfold callee at h
  unfold calleeSymbol
  split at h
  · rename_i name ht
    have hname : name = r.value := Target.toText_of_ofText ht
    rw [ht]
    exact ⟨name, hname ▸ hlf, (Except.ok.inj h).symm⟩
  · rename_i owner name ht
    have hname : owner ++ '.' :: name = r.value := Target.toText_of_ofText ht
    rw [ht]
    exact ⟨name, fun hn => hlf (hname ▸ by simp [hn]), (Except.ok.inj h).symm⟩
  · cases h

/-- A step with nothing to run on its lines: a comment, or a call that stands in one. -/
inductive SilentStep (layout : Layout) (m : Module) : Step → Prop
  | comment {c : Text} {loc : Location} (h : isComment c = true) : SilentStep layout m (.shell c loc)
  | ensure {r : Reference} {args : Option Text} (h : Hidden (m.calleeSymbol layout r)) :
      SilentStep layout m (.ensure r args)
  | run {r : Reference} (h : Hidden (m.calleeSymbol layout r)) : SilentStep layout m (.run r)

theorem silentStep_iff {step : Step} {st : Statement} (hs : step.Canonical)
    (h : m.statement layout step = .ok st) :
    st.lines.any Text.runs = false ↔ SilentStep layout m step := by
  cases step with
  | ensure r args =>
    obtain ⟨f, hf, h⟩ := of_bind_ok h
    cases h
    obtain ⟨name, hname, rfl⟩ := callee_eq hs.1 hf
    have hsilent : SilentStep layout m (.ensure r args) ↔ Hidden (m.calleeSymbol layout r) :=
      ⟨fun h => by cases h; assumption, .ensure⟩
    rw [hsilent]
    cases args with
    | none => rw [lines, runs_only, hidden_iff hname]
    | some a =>
      have ha : '\n' ∉ ' ' :: a := by simpa using (hs.2 a rfl).lf_not_mem
      rw [lines, List.append_assoc, List.append_assoc, runs_only]
      exact runs_wrapperName _ _ hname ha
  | run r =>
    obtain ⟨f, hf, h⟩ := of_bind_ok h
    cases h
    obtain ⟨name, hname, rfl⟩ := callee_eq hs hf
    rw [lines, runs_only, hidden_iff hname]
    exact ⟨.run, fun h => by cases h; assumption⟩
  | prompt text loc =>
    simp only [statement] at h
    split at h
    · cases h
      exact iff_of_false (runs_first (by decide) (by decide) (by decide) _ _) (by rintro ⟨⟩)
    · cases h
  | shell c loc =>
    cases h
    rw [lines, runs_only, Text.runs_of_clean hs.1, Bool.not_eq_false']
    exact ⟨.comment, fun h => by cases h; assumption⟩
  | unlessRun check call =>
    obtain ⟨c, -, h⟩ := of_bind_ok h
    obtain ⟨f, -, h⟩ := of_bind_ok h
    cases h
    exact iff_of_false (runs_first (by decide) (by decide) (by decide) _ _) (by rintro ⟨⟩)
  | unlessShell check commands =>
    obtain ⟨c, -, h⟩ := of_bind_ok h
    cases h
    exact iff_of_false (runs_first (by decide) (by decide) (by decide) _ _) (by rintro ⟨⟩)

theorem silentSteps_iff {steps : List Step} {body : List Statement} (hs : ∀ s ∈ steps, s.Canonical)
    (h : List.Forall₂ (fun step st => m.statement layout step = .ok st) steps body) :
    (body.flatMap lines).any Text.runs = false ↔ ∀ s ∈ steps, SilentStep layout m s := by
  induction h with
  | nil => simp
  | @cons step st steps body hst _ ih =>
    rw [flatMap_cons, any_append, Bool.or_eq_false_iff, silentStep_iff (hs step (by simp)) hst,
      ih fun s hm => hs s (by simp [hm]), forall_mem_cons]

theorem silentWorkflow_iff {w : Workflow} {d : Definition} (hw : ∀ s ∈ w.steps, s.Canonical)
    (h : m.workflowDefinition layout w = .ok d) :
    (d.body.flatMap lines).any Text.runs = false ↔
      w.steps ≠ [] ∧ ∀ s ∈ w.steps, SilentStep layout m s := by
  obtain ⟨-, body, hbody, hd⟩ := workflowDefinition_spec h
  by_cases hnil : w.steps = []
  · rw [hnil] at hbody
    cases hbody
    rw [hd, if_pos rfl]
    simp only [hnil, ne_eq, not_true_eq_false, false_and, iff_false]
    decide
  · have hne : body ≠ [] := fun he => hnil (forall₂_nil_right_iff.mp (he ▸ hbody))
    rw [hd, if_neg hne, silentSteps_iff hw hbody, and_iff_right hnil]

theorem unless_of_statement {step : Step} {check : Text} {commands : List Text}
    (h : m.statement layout step = .ok (.unless check commands)) :
    (∃ rule call f, step = .unlessRun rule call ∧ m.callee layout .workflow call = .ok f ∧ commands = [f]) ∨
      ∃ rule lines, step = .unlessShell rule lines ∧ commands = lines.map (·.command) := by
  cases step with
  | unlessRun rule call =>
    obtain ⟨c, -, h⟩ := of_bind_ok h
    obtain ⟨f, hf, h⟩ := of_bind_ok h
    cases h
    exact .inl ⟨rule, call, f, rfl, hf, rfl⟩
  | unlessShell rule lines =>
    obtain ⟨c, -, h⟩ := of_bind_ok h
    cases h
    exact .inr ⟨rule, lines, rfl, rfl⟩
  | ensure r args =>
    obtain ⟨f, -, h⟩ := of_bind_ok h
    cases h
  | run r =>
    obtain ⟨f, -, h⟩ := of_bind_ok h
    cases h
  | shell c loc => cases h
  | prompt text loc =>
    simp only [statement] at h
    split at h <;> cases h

theorem any_runs_branch (commands : List Text) :
    ((orColon commands).map (("    " : Text) ++ ·)).any Text.runs = (orColon commands).any Text.runs := by
  rw [any_map]
  exact congrArg (List.any (orColon commands)) (funext fun t => Text.runs_indent (by decide) t)

theorem runs_conditional {lines : List ShellLine} (h : ∀ c ∈ lines, ConditionalCommand c.command) :
    (orColon (lines.map (·.command))).any Text.runs = true := by
  cases lines with
  | nil => decide
  | cons c rest =>
    have hc := h c (by simp)
    simp [orColon, Text.runs_of_clean hc.1, hc.2.1]

/-- The branch of a conditional has a command of its own, unless it is a call that stands in a comment. -/
theorem silentBranch_iff {w : Workflow} {d : Definition} {check : Text} {commands : List Text}
    (hw : ∀ s ∈ w.steps, s.Canonical) (h : m.workflowDefinition layout w = .ok d)
    (hb : .unless check commands ∈ d.body) :
    ((orColon commands).map (("    " : Text) ++ ·)).any Text.runs = false ↔
      ∃ rule call f, .unlessRun rule call ∈ w.steps ∧ m.callee layout .workflow call = .ok f ∧ commands = [f] ∧
        Hidden (m.calleeSymbol layout call) := by
  obtain ⟨-, body, hbody, hd⟩ := workflowDefinition_spec h
  have hmem : .unless check commands ∈ body := by
    rw [hd] at hb
    split at hb
    · simp at hb
    · exact hb
  obtain ⟨step, hstep, hst⟩ := exists_of_forall₂ hbody.flip hmem
  have hcall : ∀ {rule call f}, .unlessRun rule call ∈ w.steps → m.callee layout .workflow call = .ok f →
      (Text.runs f = false ↔ Hidden (m.calleeSymbol layout call)) := by
    intro rule call f hs hf
    obtain ⟨name, hname, rfl⟩ := callee_eq (hw _ hs).2 hf
    exact hidden_iff hname
  rw [any_runs_branch]
  constructor
  · intro hno
    rcases unless_of_statement hst with ⟨rule, call, f, rfl, hf, rfl⟩ | ⟨rule, lines, rfl, rfl⟩
    · exact ⟨rule, call, f, hstep, hf, rfl, (hcall hstep hf).mp (by simpa [orColon] using hno)⟩
    · rw [runs_conditional (hw _ hstep).2.1] at hno
      cases hno
  · rintro ⟨rule, call, f, hs, hf, rfl, hh⟩
    simpa [orColon] using (hcall hs hf).mpr hh

inductive SilentBody (layout : Layout) (m : Module) (d : Definition) : List Text → Prop
  | workflow {w : Workflow} (hw : w ∈ m.workflows) (hd : m.workflowDefinition layout w = .ok d)
      (hne : w.steps ≠ []) (hs : ∀ s ∈ w.steps, SilentStep layout m s) :
      SilentBody layout m d (d.body.flatMap lines)
  | bare {name : Text} (h : d.bareName = some name) (hs : Hidden (layout.symbol m.file)) :
      SilentBody layout m d [(" " : Text) ++ d.symbol ++ " \"$@\"; "]
  | branch {w : Workflow} {rule call : Reference} {f : Text} (hw : w ∈ m.workflows)
      (hd : m.workflowDefinition layout w = .ok d) (hs : .unlessRun rule call ∈ w.steps)
      (hf : m.callee layout .workflow call = .ok f) (hh : Hidden (m.calleeSymbol layout call)) :
      SilentBody layout m d [("    " : Text) ++ f]

section

variable {d : Definition} {body : List Text} (hm : m.Canonical) (h : m.script layout = .ok s)
  (hd : d ∈ s.definitions)

include h hd

theorem definition_origin :
    (∃ kind r, r ∈ m.rules ++ m.functions ∧ d = m.routineDefinition layout kind r) ∨
      ∃ w ∈ m.workflows, m.workflowDefinition layout w = .ok d := by
  obtain ⟨workflows, hws, hdefs⟩ := script_spec h
  rw [hdefs, mem_append, mem_append] at hd
  rcases hd with (hd | hd) | hd
  · obtain ⟨r, hr, rfl⟩ := mem_map.mp hd
    exact .inl ⟨.rule, r, by simp [hr], rfl⟩
  · obtain ⟨r, hr, rfl⟩ := mem_map.mp hd
    exact .inl ⟨.function, r, by simp [hr], rfl⟩
  · obtain ⟨w, hw, hwd⟩ := exists_of_forall₂ hws.flip hd
    exact .inr ⟨w, hw, hwd⟩

include hm

theorem symbol_eq : ∃ kind name, '\n' ∉ name ∧ d.symbol = wrapperName (layout.symbol m.file) kind name := by
  rcases definition_origin h hd with ⟨kind, r, hr, rfl⟩ | ⟨w, hw, hwd⟩
  · have hname : isIdentifier r.name = true := by
      rcases mem_append.mp hr with hr | hr
      · exact (hm.rules r hr).1.1
      · exact (hm.functions r hr).1.1
    exact ⟨kind, r.name, (Text.Clean.of_isIdentifier hname).lf_not_mem, rfl⟩
  · exact ⟨.workflow, w.name, (Text.Clean.of_isIdentifier (hm.workflows w hw).1.1).lf_not_mem,
      (workflowDefinition_spec hwd).1⟩

theorem silentBare_iff :
    [(" " : Text) ++ d.symbol ++ " \"$@\"; "].any Text.runs = false ↔ Hidden (layout.symbol m.file) := by
  obtain ⟨kind, name, hname, hsym⟩ := symbol_eq hm h hd
  rw [any_cons, any_nil, Bool.or_false, List.append_assoc, Text.runs_indent (by decide), hsym]
  exact runs_wrapperName _ _ hname (by decide)

theorem SilentBody.runs_eq (hs : SilentBody layout m d body) : body.any Text.runs = false := by
  cases hs with
  | workflow hw hwd hne hs => exact (silentWorkflow_iff (hm.workflows _ hw).2 hwd).mpr ⟨hne, hs⟩
  | bare _ hs => exact (silentBare_iff hm h hd).mpr hs
  | branch hw _ hs hf hh =>
    obtain ⟨name, hname, rfl⟩ := callee_eq ((hm.workflows _ hw).2 _ hs).2 hf
    rw [any_cons, any_nil, Bool.or_false, Text.runs_indent (by decide)]
    exact (hidden_iff hname).mpr hh

theorem silentBody_iff (hb : d.Body body) : body.any Text.runs = false ↔ SilentBody layout m d body := by
  refine ⟨fun hno => ?_, SilentBody.runs_eq hm h hd⟩
  cases hb with
  | impl =>
    rcases definition_origin h hd with ⟨kind, r, -, rfl⟩ | ⟨w, hw, hwd⟩
    · exact absurd hno (Statement.runs_first (by decide) (by decide) (by decide) _ _)
    · obtain ⟨hne, hs⟩ := (silentWorkflow_iff (hm.workflows w hw).2 hwd).mp hno
      exact .workflow hw hwd hne hs
  | wrapper => exact absurd hno (runs_first (by decide) (by decide) (by decide) _ [])
  | bare hname => exact .bare hname ((silentBare_iff hm h hd).mp hno)
  | branch hin =>
    rcases definition_origin h hd with ⟨kind, r, -, rfl⟩ | ⟨w, hw, hwd⟩
    · simp [routineDefinition] at hin
    · obtain ⟨rule, call, f, hs, hf, rfl, hh⟩ := (silentBranch_iff (hm.workflows w hw).2 hwd hin).mp hno
      exact .branch hw hwd hs hf hh

end

end Module

theorem FileTree.canonical_of_readModule {t : FileTree} {file : Path} {m : Module}
    (h : t.readModule file = .ok m) : m.Canonical := by
  simp only [FileTree.readModule] at h
  split at h
  · cases h
  · exact Module.canonical_of_parse (of_mapError_ok h)

/-- Every body that a compiled script gives to a function or a branch has a line that is neither blank nor a
comment, except for workflows that hold comments only and calls of a module whose symbol starts a comment.
-/
theorem compile_bodies (t : FileTree) (file root : Path) (s : Script) (h : t.compile file root = .ok s) :
    ∃ m, t.readModule (file.resolve t.cwd) = .ok m ∧ ∀ d ∈ s.definitions, ∀ body, d.Body body →
      Enclosed body s.lines ∧
        (body.any Text.runs = false ↔ m.SilentBody ⟨t.cwd, root.resolve t.cwd⟩ d body) := by
  obtain ⟨m, hm, -, -, hscript⟩ := FileTree.compile_spec h
  refine ⟨m, hm, fun d hd body hb => ⟨?_, ?_⟩⟩
  · obtain ⟨above, below, hlines⟩ := Script.lines_split hd
    rw [hlines]
    exact hb.enclosed.within above below
  · exact Module.silentBody_iff (FileTree.canonical_of_readModule hm) hscript hd hb

def commentOnly : FileTree where
  cwd := "/w"
  root := .dir [("w", .dir [
    ("main.jph", .file 0o644 (Utf8.encode "workflow default \x7b\n  # nothing yet\n\x7d\n"))])]

def silentDefinition : Definition := ⟨[], "main__workflow_default", [.shell "# nothing yet"], false, none⟩

theorem compile_bodies_commentOnly :
    ∃ (s : Script) (m : Module), commentOnly.compile "main.jph" "." = .ok s ∧ silentDefinition ∈ s.definitions ∧
      Enclosed ["  # nothing yet"] s.lines ∧ m.SilentBody ⟨"/w", "/w"⟩ silentDefinition ["  # nothing yet"] := by
  have hcompiles : (commentOnly.compile "main.jph" ".").toOption.map (·.definitions) = some [silentDefinition] := by
    decide +kernel
  obtain ⟨s, hs, hdefs⟩ := Option.map_eq_some_iff.mp hcompiles
  have hd : silentDefinition ∈ s.definitions := by simp [hdefs]
  obtain ⟨m, -, hall⟩ := compile_bodies commentOnly "main.jph" "." s (of_toOption hs)
  obtain ⟨henclosed, hsilent⟩ := hall silentDefinition hd _ .impl
  exact ⟨s, m, of_toOption hs, hd, henclosed, hsilent.mp (by decide +kernel)⟩

end Runbook
