import Runbook.Proofs.Canonical
import Runbook.Proofs.Relocation

/-!
# Printing a module

A module is printed with its imports first and then its rules, functions and workflows, each below its
comments. Reading the print gives the same module again, but for the places and the exports.
-/

open List

namespace Runbook
open Reader Runbook.Module

open Text (Clean)

/-! ## The print -/

def commandRow (command : Text) : Text := if isComment command then command else "run" ++ ' ' :: command

/-- The rows of a step. A prompt is one row, whose text may have line feeds. -/
def Step.rows : Step → List Text
  | .ensure check args => ["ensure" ++ ' ' :: ensureBody check.value args]
  | .run call => ["run" ++ ' ' :: call.value]
  | .prompt text _ => ["prompt \"" ++ text ++ "\""]
  | .shell command _ => [command]
  | .unlessRun check call => [conditionalOpening check.value, "run" ++ ' ' :: call.value, "fi".toList]
  | .unlessShell check commands =>
    conditionalOpening check.value :: (commands.map (·.command) ++ ["fi".toList])

/-- The rows of a declaration with the given body. -/
def declarationRows (kind : Kind) (name : Text) (comments body : List Text) : List Text :=
  comments ++ (kind.text ++ ' ' :: (name ++ [' ', '{'])) :: (body ++ [['}']])

def Import.rows (i : Import) : List Text := [importLine i.path i.owner]

def Routine.ruleRows (d : Routine) : List Text := declarationRows .rule d.name d.comments d.commands

def Routine.functionRows (d : Routine) : List Text :=
  declarationRows .function d.name d.comments (d.commands.map commandRow)

def Workflow.rows (w : Workflow) : List Text :=
  declarationRows .workflow w.name w.comments (w.steps.flatMap Step.rows)

def Module.rows (m : Module) : List Text :=
  [] :: (m.imports.flatMap Import.rows ++ (m.rules.flatMap Routine.ruleRows ++
    (m.functions.flatMap Routine.functionRows ++ m.workflows.flatMap Workflow.rows)))

/-- The print of a module. Every row is ended by a carriage return and a line feed, and `inner` stands for
the line feeds inside a row. -/
def Module.print (inner : Text) (m : Module) : Text :=
  m.rows.flatMap fun row => inner.intercalate (row.splitOn '\n') ++ ['\r', '\n']

def unplace : Location → Location := fun _ => ⟨0, 0⟩

@[simp] theorem unplace_apply (l : Location) : unplace l = ⟨0, 0⟩ := rfl

def Module.unplaced (m : Module) : Module := { m.relocate unplace with exported := [] }

def rowLines (rows : List Text) : List Text := rows.flatMap (List.splitOn '\n')

theorem rowLines_append (a b : List Text) : rowLines (a ++ b) = rowLines a ++ rowLines b := flatMap_append

theorem rowLines_of_lf_not_mem {rows : List Text} (h : ∀ row ∈ rows, '\n' ∉ row) : rowLines rows = rows := by
  induction rows with
  | nil => rfl
  | cons row rows ih =>
    rw [rowLines, flatMap_cons, splitOn_eq_singleton (h row (by simp))]
    exact congrArg (row :: ·) (ih fun k hk => h k (by simp [hk]))

/-- The line feeds of a row can be written as they are if no carriage return stands before one of them,
and always with a carriage return. -/
theorem lines_rows {inner : Text} {rows : List Text}
    (h : inner = ['\r', '\n'] ∨ inner = ['\n'] ∧ ∀ row ∈ rows, ¬ ['\r', '\n'] <:+: row) :
    Text.lines (rows.flatMap fun row => inner.intercalate (row.splitOn '\n') ++ ['\r', '\n']) =
      rowLines rows := by
  induction rows with
  | nil => rfl
  | cons row rows ih =>
    have hrest := ih (h.imp_right fun h => ⟨h.1, fun k hk => h.2 k (by simp [hk])⟩)
    rw [flatMap_cons, List.append_assoc]
    rcases h with rfl | ⟨rfl, hrow⟩
    · exact (Text.lines_intercalate_crlf (splitOn_ne_nil _ row)
        (fun l => Text.not_mem_of_mem_splitOn) _).trans (congrArg (_ ++ ·) hrest)
    · rw [intercalate_splitOn]
      exact (Text.lines_append_crlf (hrow row (by simp)) _).trans (congrArg (_ ++ ·) hrest)

/-! ## Declarations one after the other -/

/-- Between declarations, the lines add the declarations of `added`, at some places. -/
def Yields (raws : List Text) (added : Module) : Prop :=
  ∀ (m : Module) (line : Nat), 1 < line →
    ∃ m', (mk m [] .top).steps line raws = .ok ⟨m', [], .top⟩ ∧
      m'.unplaced = (m.append added).unplaced

theorem Module.append_assoc (a b c : Module) : (a.append b).append c = a.append (b.append c) := by
  simp [append]

theorem Module.append_empty (m : Module) (file : Path) : m.append (.empty file) = m := by
  simp [append, empty]

theorem Module.unplaced_append (a b : Module) : (a.append b).unplaced = a.unplaced.append b.unplaced := by
  simp [unplaced, append, relocate]

theorem Yields.nil (file : Path) : Yields [] (.empty file) :=
  fun m line _ => ⟨m, rfl, by rw [m.append_empty]⟩

theorem Yields.append {a b : List Text} {x y : Module} (ha : Yields a x) (hb : Yields b y) :
    Yields (a ++ b) (x.append y) := by
  intro m line hline
  obtain ⟨m₁, h₁, e₁⟩ := ha m line hline
  obtain ⟨m₂, h₂, e₂⟩ := hb m₁ (line + a.length) (by omega)
  refine ⟨m₂, ?_, ?_⟩
  · rw [steps_append, h₁]
    exact h₂
  · rw [e₂, ← Module.append_assoc, Module.unplaced_append, e₁, ← Module.unplaced_append]

theorem Yields.flatMap {α : Type} (file : Path) (rows : α → List Text) (many : List α → Module)
    (hnil : many [] = .empty file) (hcons : ∀ x xs, many (x :: xs) = (many [x]).append (many xs)) {xs : List α}
    (h : ∀ x ∈ xs, Yields (rowLines (rows x)) (many [x])) : Yields (rowLines (xs.flatMap rows)) (many xs) := by
  induction xs with
  | nil => exact hnil ▸ .nil file
  | cons x xs ih =>
    rw [flatMap_cons, rowLines_append, hcons]
    exact (h x (by simp)).append (ih fun y hy => h y (by simp [hy]))

theorem clean_commandRow {c : Text} (h : Clean c) : Clean (commandRow c) := by
  unfold commandRow
  split
  · exact h
  · exact h.run

theorem lf_not_mem_of_mem_rows {s : Step} (h : s.Canonical) (hs : ∀ text loc, s ≠ .prompt text loc) :
    ∀ row ∈ s.rows, '\n' ∉ row := by
  have hcall {target : Text} (ht : isReference target = true) : '\n' ∉ ("run" ++ ' ' :: target : Text) :=
    (Clean.of_isReference ht).run.lf_not_mem
  have hfi : '\n' ∉ "fi".toList := by decide
  cases s with
  | ensure check args =>
    exact forall_mem_singleton.mpr (clean_ensureBody h.1 h.2).ensure.lf_not_mem
  | run call => exact forall_mem_singleton.mpr (hcall h)
  | prompt text loc => exact absurd rfl (hs text loc)
  | shell command loc => exact forall_mem_singleton.mpr h.1.lf_not_mem
  | unlessRun check call =>
    exact forall_mem_cons.mpr ⟨(clean_conditionalOpening h.1).lf_not_mem,
      forall_mem_cons.mpr ⟨hcall h.2, forall_mem_singleton.mpr hfi⟩⟩
  | unlessShell check commands =>
    refine forall_mem_cons.mpr ⟨(clean_conditionalOpening h.1).lf_not_mem, forall_mem_concat ?_ hfi⟩
    intro row hrow
    obtain ⟨c, hc, rfl⟩ := mem_map.mp hrow
    exact (h.2.1 c hc).1.lf_not_mem

namespace Reader

theorem steps_comments (m : Module) (before : List Text) {comments : List Text} (h : Commented comments)
    {line : Nat} (hline : 1 < line) :
    (mk m before .top).steps line comments = .ok ⟨m, before ++ comments, .top⟩ := by
  induction comments generalizing before line with
  | nil => simp [steps]
  | cons c comments ih =>
    obtain ⟨hclean, hc⟩ := h c (by simp)
    have hstep : (mk m before .top).step line c = _ := topLine_comment _ (by omega) hclean hc
    have hrest := ih (before ++ [c]) (fun k hk => h k (by simp [hk])) (by omega : 1 < line + 1)
    rw [steps_cons_ok hstep, hrest, List.append_assoc]
    rfl

theorem steps_declarationRows (m : Module) {line : Nat} (hline : 1 < line) (kind : Kind) {name : Text}
    {comments : List Text} (h : Declared name comments) (body : List Text) :
    (mk m [] .top).steps line (declarationRows kind name comments body) =
      (mk m [] (.opened ⟨name, comments, false, line + comments.length⟩ kind)).steps
        (line + comments.length + 1) (body ++ [['}']]) := by
  have hopen : (mk m comments .top).step (line + comments.length) _ = _ :=
    topLine_declaration _ _ kind h.1
  rw [declarationRows, steps_append, steps_comments m [] h.2 hline, nil_append]
  exact steps_cons_ok hopen _

theorem steps_rule (r : Reader) (head : Heading) (before : List Text) {commands : List Text}
    (h : ∀ c ∈ commands, RuleCommand c) (line : Nat) :
    (r.inBlock (.rule head before)).steps line (commands ++ [['}']]) =
      .ok (r.closeRule head (before ++ commands)) := by
  induction commands generalizing before line with
  | nil =>
    rw [append_nil]
    rfl
  | cons c commands ih =>
    obtain ⟨hclean, hbrace, hrun⟩ := h c (by simp)
    have hkept : (!isComment c && (afterKeyword "run" c).isSome) = false := by
      rcases hrun with hc | hn
      · simp only [hc, Bool.not_true, Bool.false_and]
      · rw [hn, Option.isSome_none, Bool.and_false]
    have hstep : (r.inBlock (.rule head before)).step line c =
        .ok (r.inBlock (.rule head (before ++ [c]))) := by
      simp only [step, ruleLine, hclean.trim_eq, hclean.ne_nil, hbrace, hkept, ↓reduceIte, Bool.false_eq_true]
    have hrest := ih (before ++ [c]) (fun k hk => h k (by simp [hk])) (line + 1)
    rw [List.append_assoc] at hrest
    rw [cons_append, steps_cons_ok hstep]
    exact hrest

theorem functionLine_commandRow (r : Reader) (head : Heading) (before : List Text) {c : Text} (h : Clean c) :
    r.functionLine head before (commandRow c) = r.inBlock (.function head (before ++ [c])) := by
  by_cases hc : isComment c = true
  · have hbrace : c ≠ ['}'] := by
      rintro rfl
      cases hc
    simp only [functionLine, commandRow, hc, h.trim_eq, h.ne_nil, hbrace, ↓reduceIte]
  · have hrun := h.run
    have hafter := afterKeyword_append h.ne_nil h.trim_eq "run"
    have hbrace : ("run" ++ ' ' :: c : Text) ≠ ['}'] := by simp
    have hcomment : isComment ("run" ++ ' ' :: c) = false := rfl
    simp only [functionLine, commandRow, hc, hrun.trim_eq, hrun.ne_nil, hbrace, hcomment, hafter, ↓reduceIte,
      Bool.false_eq_true, Option.getD_some]

theorem steps_function (r : Reader) (head : Heading) (before : List Text) {commands : List Text}
    (h : ∀ c ∈ commands, Clean c) (line : Nat) :
    (r.inBlock (.function head before)).steps line (commands.map commandRow ++ [['}']]) =
      .ok (r.closeFunction head (before ++ commands)) := by
  induction commands generalizing before line with
  | nil =>
    rw [append_nil]
    rfl
  | cons c commands ih =>
    have hstep : (r.inBlock (.function head before)).step line (commandRow c) =
        .ok (r.inBlock (.function head (before ++ [c]))) :=
      congrArg Except.ok (functionLine_commandRow _ head before (h c (by simp)))
    have hrest := ih (before ++ [c]) (fun k hk => h k (by simp [hk])) (line + 1)
    rw [List.append_assoc] at hrest
    rw [map_cons, cons_append, steps_cons_ok hstep]
    exact hrest

theorem step_ensure (r : Reader) (head : Heading) (before : List Step) (line : Nat) {rule : Text}
    {args : Option Text} (h : isReference rule = true) (hargs : ∀ a ∈ args, Clean a) :
    ∃ loc, (r.inBlock (.workflow head before)).step line ("ensure" ++ ' ' :: ensureBody rule args) =
      .ok (r.inBlock (.workflow head (before ++ [.ensure ⟨rule, loc⟩ args]))) := by
  have hbody := clean_ensureBody h hargs
  have htrim := hbody.ensure.trim_eq
  have hparts := ensureParts_ensureBody h hargs
  refine ⟨⟨line, keywordCol "ensure" ("ensure" ++ ' ' :: ensureBody rule args)⟩, ?_⟩
  simp only [step, workflowLine, htrim, BodyLine.of_ensure hbody, hparts, h, ↓reduceIte]

theorem step_run (r : Reader) (head : Heading) (before : List Step) (line : Nat) {target : Text}
    (h : isReference target = true) :
    ∃ loc, (r.inBlock (.workflow head before)).step line ("run" ++ ' ' :: target) =
      .ok (r.inBlock (.workflow head (before ++ [.run ⟨target, loc⟩]))) := by
  have hclean := Clean.of_isReference h
  have htrim := hclean.run.trim_eq
  refine ⟨⟨line, keywordCol "run" ("run" ++ ' ' :: target)⟩, ?_⟩
  simp only [step, workflowLine, htrim, BodyLine.of_run hclean, h, ↓reduceIte]

theorem step_shell (r : Reader) (head : Heading) (before : List Step) (line : Nat) {c : Text} (h : Clean c)
    (hc : BodyLine.of c = .comment ∨ BodyLine.of c = .shell) :
    (r.inBlock (.workflow head before)).step line c =
      .ok (r.inBlock (.workflow head (before ++ [.shell c ⟨line, 1⟩]))) := by
  rcases hc with hc | hc <;> simp only [step, workflowLine, h.trim_eq, hc]

theorem step_conditional (r : Reader) (head : Heading) (before : List Step) (line : Nat) {rule : Text}
    (h : isReference rule = true) :
    ∃ loc, (r.inBlock (.workflow head before)).step line (conditionalOpening rule) =
      .ok (r.inBlock (.conditional head before line ⟨rule, loc⟩ [])) := by
  refine ⟨⟨line, keywordCol "ensure" (conditionalOpening rule)⟩, ?_⟩
  simp only [step, workflowLine, (clean_conditionalOpening h).trim_eq, BodyLine.of_conditionalOpening h]

theorem step_conditionalRun (r : Reader) (head : Heading) (before : List Step) (start : Nat) (check : Reference)
    (line : Nat) {target : Text} (h : isReference target = true) :
    ∃ loc, (r.inBlock (.conditional head before start check [])).step line ("run" ++ ' ' :: target) =
      .ok (r.inBlock (.conditionalEnd head before start check ⟨target, loc⟩)) := by
  have hclean := Clean.of_isReference h
  have hrun := hclean.run
  have hcall : conditionalRun [] ("run" ++ ' ' :: target) = some target := by
    rw [conditionalRun, if_pos rfl, afterKeyword_append hclean.ne_nil hclean.trim_eq]
    simp [h]
  have hline : ¬ (("run" ++ ' ' :: target : Text) = [] ∨ isComment ("run" ++ ' ' :: target) = true) := by
    rintro (he | hc)
    · exact hrun.ne_nil he
    · cases hc
  have hfi : ("run" ++ ' ' :: target : Text) ≠ "fi".toList := by simp
  refine ⟨⟨line, keywordCol "run" ("run" ++ ' ' :: target)⟩, ?_⟩
  simp only [step, conditionalLine, hrun.trim_eq, hline, hfi, hcall, ↓reduceIte]

theorem steps_conditional (r : Reader) (head : Heading) (steps : List Step) (start : Nat) (check : Reference)
    (before : List ShellLine) {commands : List ShellLine} (h : ∀ c ∈ commands, ConditionalCommand c.command)
    (hfirst : before = [] → ∀ c ∈ commands.head?, conditionalRun [] c.command = none) (line : Nat) :
    ∃ commands', commands'.map (·.relocate unplace) = commands.map (·.relocate unplace) ∧
      (r.inBlock (.conditional head steps start check before)).steps line
        (commands.map (·.command) ++ ["fi".toList]) =
        .ok (r.inBlock (.workflow head (steps ++ [.unlessShell check (before ++ commands')]))) := by
  induction commands generalizing before line with
  | nil =>
    refine ⟨[], rfl, ?_⟩
    rw [append_nil]
    rfl
  | cons c commands ih =>
    obtain ⟨hclean, hcomment, hfi⟩ := h c (by simp)
    have hrun : conditionalRun before c.command = none := by
      cases before with
      | nil => exact hfirst rfl c rfl
      | cons => rfl
    have hline : ¬ (c.command = [] ∨ isComment c.command = true) := by simp [hclean.ne_nil, hcomment]
    have hstep : (r.inBlock (.conditional head steps start check before)).step line c.command =
        .ok (r.inBlock (.conditional head steps start check
          (before ++ [⟨c.command, ⟨line, indentCol c.command⟩⟩]))) := by
      simp only [step, conditionalLine, hclean.trim_eq, hline, hfi, hrun, ↓reduceIte]
    obtain ⟨commands', hcommands', hrest⟩ := ih (before ++ [⟨c.command, ⟨line, indentCol c.command⟩⟩])
      (fun k hk => h k (by simp [hk])) (by simp) (line + 1)
    refine ⟨⟨c.command, ⟨line, indentCol c.command⟩⟩ :: commands', ?_, ?_⟩
    · rw [map_cons, map_cons, hcommands']
      rfl
    · rw [List.append_assoc] at hrest
      rw [map_cons, cons_append, steps_cons_ok hstep]
      exact hrest

theorem steps_step (r : Reader) (head : Heading) (before : List Step) {s : Step} (h : s.Canonical)
    (line : Nat) :
    ∃ s', s'.relocate unplace = s.relocate unplace ∧
      (r.inBlock (.workflow head before)).steps line (rowLines s.rows) =
        .ok (r.inBlock (.workflow head (before ++ [s']))) := by
  cases s with
  | ensure check args =>
    obtain ⟨loc, hline⟩ := step_ensure r head before line h.1 h.2
    refine ⟨.ensure ⟨check.value, loc⟩ args, rfl, ?_⟩
    rw [rowLines_of_lf_not_mem (lf_not_mem_of_mem_rows h (by simp)), Step.rows, steps_cons_ok hline]
    rfl
  | run call =>
    obtain ⟨loc, hline⟩ := step_run r head before line h
    refine ⟨.run ⟨call.value, loc⟩, rfl, ?_⟩
    rw [rowLines_of_lf_not_mem (lf_not_mem_of_mem_rows h (by simp)), Step.rows, steps_cons_ok hline]
    rfl
  | prompt text loc =>
    refine ⟨.prompt text ⟨line, 1⟩, rfl, ?_⟩
    have hread := steps_promptLines r head before line [] (by simp) h
    have hrows : rowLines (Step.prompt text loc).rows = promptLines [] text := by
      simp only [Step.rows, rowLines, promptLines, flatMap_cons, flatMap_nil, append_nil,
        nil_append]
    rw [hrows]
    exact hread
  | shell command loc =>
    have hline := step_shell r head before line h.1 h.2
    refine ⟨.shell command ⟨line, 1⟩, rfl, ?_⟩
    rw [rowLines_of_lf_not_mem (lf_not_mem_of_mem_rows h (by simp)), Step.rows, steps_cons_ok hline]
    rfl
  | unlessRun check call =>
    obtain ⟨loc, hline⟩ := step_conditional r head before line h.1
    obtain ⟨place, hrun⟩ := step_conditionalRun r head before line ⟨check.value, loc⟩ (line + 1) h.2
    refine ⟨.unlessRun ⟨check.value, loc⟩ ⟨call.value, place⟩, rfl, ?_⟩
    rw [rowLines_of_lf_not_mem (lf_not_mem_of_mem_rows h (by simp)), Step.rows, steps_cons_ok hline,
      steps_cons_ok hrun]
    rfl
  | unlessShell check commands =>
    obtain ⟨loc, hline⟩ := step_conditional r head before line h.1
    obtain ⟨commands', hcommands', hread⟩ := steps_conditional r head before line ⟨check.value, loc⟩ [] h.2.1
      (fun _ => h.2.2) (line + 1)
    refine ⟨.unlessShell ⟨check.value, loc⟩ commands', ?_, ?_⟩
    · simp [Step.relocate, Reference.relocate, hcommands']
    · rw [rowLines_of_lf_not_mem (lf_not_mem_of_mem_rows h (by simp)), Step.rows, steps_cons_ok hline]
      exact hread

theorem steps_workflow (r : Reader) (head : Heading) (before : List Step) {steps : List Step}
    (h : ∀ s ∈ steps, s.Canonical) (line : Nat) :
    ∃ steps', steps'.map (·.relocate unplace) = steps.map (·.relocate unplace) ∧
      (r.inBlock (.workflow head before)).steps line (rowLines (steps.flatMap Step.rows) ++ [['}']]) =
        .ok (r.closeWorkflow head (before ++ steps')) := by
  induction steps generalizing before line with
  | nil =>
    refine ⟨[], rfl, ?_⟩
    rw [append_nil]
    rfl
  | cons s steps ih =>
    obtain ⟨s', hs', hstep⟩ := steps_step r head before (h s (by simp)) line
    obtain ⟨steps', hsteps', hrest⟩ :=
      ih (before ++ [s']) (fun k hk => h k (by simp [hk])) (line + (rowLines s.rows).length)
    refine ⟨s' :: steps', by simp [hs', hsteps'], ?_⟩
    rw [List.append_assoc] at hrest
    rw [flatMap_cons, rowLines_append, List.append_assoc, steps_append, hstep]
    exact hrest

end Reader

theorem rowLines_declarationRows {kind : Kind} {name : Text} {comments : List Text} (h : Declared name comments)
    (body : List Text) :
    rowLines (declarationRows kind name comments body) =
      declarationRows kind name comments (rowLines body) := by
  have hcomments := rowLines_of_lf_not_mem fun c hc => (h.2 c hc).1.lf_not_mem
  have hheading : rowLines [kind.text ++ ' ' :: (name ++ [' ', '{'])] = _ :=
    rowLines_of_lf_not_mem (forall_mem_singleton.mpr (kind.clean_text.keyword (.heading h.1)).lf_not_mem)
  have hclose : rowLines [['}']] = [['}']] := rfl
  rw [declarationRows, rowLines_append, hcomments, ← singleton_append, rowLines_append, hheading,
    rowLines_append, hclose]
  rfl

theorem yields_import (file : Path) {i : Import} (hpath : '\n' ∉ i.path)
    (howner : isIdentifier i.owner = true) :
    Yields (rowLines i.rows) { empty file with imports := [i] } := by
  intro m line _
  have hline := (clean_importLine hpath howner).lf_not_mem
  obtain ⟨loc, hstep⟩ := topLine_import ⟨m, [], .top⟩ line hpath howner
  refine ⟨{ m with imports := m.imports ++ [⟨i.path, i.owner, loc⟩] }, ?_, ?_⟩
  · rw [Import.rows, rowLines_of_lf_not_mem (by simpa using hline)]
    exact steps_cons_ok (r := ⟨m, [], .top⟩) hstep []
  · simp [unplaced, append, empty, relocate, Import.relocate]

theorem yields_rule (file : Path) {d : Routine} (hd : Declared d.name d.comments)
    (hc : ∀ c ∈ d.commands, RuleCommand c) :
    Yields (rowLines d.ruleRows) { empty file with rules := [d] } := by
  intro m line hline
  rw [Routine.ruleRows, rowLines_declarationRows hd, rowLines_of_lf_not_mem fun c h => (hc c h).1.lf_not_mem,
    steps_declarationRows m hline _ hd]
  refine ⟨_, steps_rule ⟨m, [], .top⟩ _ [] hc _, ?_⟩
  simp [unplaced, append, empty, relocate, Routine.relocate, routine]

theorem yields_function (file : Path) {d : Routine} (hd : Declared d.name d.comments)
    (hc : ∀ c ∈ d.commands, Clean c) :
    Yields (rowLines d.functionRows) { empty file with functions := [d] } := by
  intro m line hline
  have hrows : ∀ row ∈ d.commands.map commandRow, '\n' ∉ row := by
    intro row hrow
    obtain ⟨c, hm, rfl⟩ := mem_map.mp hrow
    exact (clean_commandRow (hc c hm)).lf_not_mem
  rw [Routine.functionRows, rowLines_declarationRows hd, rowLines_of_lf_not_mem hrows,
    steps_declarationRows m hline _ hd]
  refine ⟨_, steps_function ⟨m, [], .top⟩ _ [] hc _, ?_⟩
  simp [unplaced, append, empty, relocate, Routine.relocate, routine]

theorem yields_workflow (file : Path) {w : Workflow} (hd : Declared w.name w.comments)
    (hs : ∀ s ∈ w.steps, s.Canonical) :
    Yields (rowLines w.rows) { empty file with workflows := [w] } := by
  intro m line hline
  obtain ⟨steps, hsteps, hread⟩ := steps_workflow ⟨m, [], .top⟩
    ⟨w.name, w.comments, false, line + w.comments.length⟩ [] hs (line + w.comments.length + 1)
  rw [Workflow.rows, rowLines_declarationRows hd, steps_declarationRows m hline _ hd]
  refine ⟨_, hread, ?_⟩
  simp [unplaced, append, empty, relocate, Workflow.relocate, hsteps]

theorem Module.Canonical.yields {m : Module} (h : m.Canonical) (file : Path) :
    ∃ body, rowLines m.rows = [] :: body ∧
      Yields body ⟨file, m.imports, [], m.rules, m.functions, m.workflows⟩ := by
  have himports := Yields.flatMap file Import.rows
    (fun is => { empty file with imports := is }) rfl (fun _ _ => rfl)
    fun i hi => yields_import file (h.imports i hi).1 (h.imports i hi).2
  have hrules := Yields.flatMap file Routine.ruleRows
    (fun ds => { empty file with rules := ds }) rfl (fun _ _ => rfl)
    fun d hd => yields_rule file (h.rules d hd).1 (h.rules d hd).2
  have hfunctions := Yields.flatMap file Routine.functionRows
    (fun ds => { empty file with functions := ds }) rfl (fun _ _ => rfl)
    fun d hd => yields_function file (h.functions d hd).1 (h.functions d hd).2
  have hworkflows := Yields.flatMap file Workflow.rows
    (fun ws => { empty file with workflows := ws }) rfl (fun _ _ => rfl)
    fun w hw => yields_workflow file (h.workflows w hw).1 (h.workflows w hw).2
  have hall := himports.append (hrules.append (hfunctions.append hworkflows))
  simp only [← rowLines_append, append, empty, append_nil, nil_append] at hall
  exact ⟨_, rfl, hall⟩

theorem not_crlf_of_mem_rows {s : Step} (h : s.Canonical)
    (hs : ∀ text loc, s = .prompt text loc → ¬ ['\r', '\n'] <:+: text) :
    ∀ row ∈ s.rows, ¬ ['\r', '\n'] <:+: row := by
  by_cases hp : ∃ text loc, s = .prompt text loc
  · obtain ⟨text, loc, rfl⟩ := hp
    exact forall_mem_singleton.mpr (not_crlf_prompt [] (by simp) (hs text loc rfl))
  · have hlf := lf_not_mem_of_mem_rows h fun text loc he => hp ⟨text, loc, he⟩
    exact fun row hrow => Text.not_crlf_of_lf_not_mem (hlf row hrow)

/-- Whatever holds of the rows of the body and of all rows of one line holds of the rows of a declaration. -/
theorem forall_mem_declarationRows {P : Text → Prop} {kind : Kind} {name : Text} {comments body : List Text}
    (h : Declared name comments) (hline : ∀ row, '\n' ∉ row → P row) (hbody : ∀ row ∈ body, P row) :
    ∀ row ∈ declarationRows kind name comments body, P row := by
  refine forall_mem_append.mpr ⟨fun c hc => hline c (h.2 c hc).1.lf_not_mem, ?_⟩
  refine forall_mem_cons.mpr ⟨hline _ (kind.clean_text.keyword (.heading h.1)).lf_not_mem, ?_⟩
  exact forall_mem_concat hbody (hline _ (by decide))

theorem Module.Canonical.not_crlf {m : Module} (h : m.Canonical)
    (hprompt : ∀ w ∈ m.workflows, ∀ text loc, .prompt text loc ∈ w.steps → ¬ ['\r', '\n'] <:+: text) :
    ∀ row ∈ m.rows, ¬ ['\r', '\n'] <:+: row := by
  have hline (row : Text) (hr : '\n' ∉ row) : ¬ ['\r', '\n'] <:+: row := Text.not_crlf_of_lf_not_mem hr
  refine forall_mem_cons.mpr ⟨hline _ (by simp), ?_⟩
  refine forall_mem_append.mpr ⟨?_, forall_mem_append.mpr ⟨?_, forall_mem_append.mpr ⟨?_, ?_⟩⟩⟩
  · refine forall_mem_flatMap.mpr fun i hi => forall_mem_singleton.mpr (hline _ ?_)
    exact (clean_importLine (h.imports i hi).1 (h.imports i hi).2).lf_not_mem
  · refine forall_mem_flatMap.mpr fun d hd => forall_mem_declarationRows (h.rules d hd).1 hline ?_
    exact fun c hc => hline c ((h.rules d hd).2 c hc).1.lf_not_mem
  · refine forall_mem_flatMap.mpr fun d hd => forall_mem_declarationRows (h.functions d hd).1 hline ?_
    refine forall_mem_map.mpr fun c hc => hline _ ?_
    exact (clean_commandRow ((h.functions d hd).2 c hc)).lf_not_mem
  · refine forall_mem_flatMap.mpr fun w hw => forall_mem_declarationRows (h.workflows w hw).1 hline ?_
    refine forall_mem_flatMap.mpr fun s hs => not_crlf_of_mem_rows ((h.workflows w hw).2 s hs) ?_
    exact fun text loc he => hprompt w hw text loc (he ▸ hs)

/-- Reading the print of a module that was read gives it back, but for places and exports. The lines of a
prompt end like all others; they can be kept as they are if none of them ends in a carriage return. -/
theorem Module.parse_print {file : Path} {source : Text} {m : Module} (h : parse file source = .ok m) :
    (∃ m', parse file (m.print ['\r', '\n']) = .ok m' ∧ m'.unplaced = m.unplaced) ∧
    ((∀ w ∈ m.workflows, ∀ text loc, .prompt text loc ∈ w.steps → ¬ ['\r', '\n'] <:+: text) →
      ∃ m', parse file (m.print ['\n']) = .ok m' ∧ m'.unplaced = m.unplaced) := by
  have hm := canonical_of_parse h
  have hfile := file_of_parse h
  obtain ⟨body, hrows, hbody⟩ := hm.yields file
  have hread {inner : Text} (hlines : (m.print inner).lines = rowLines m.rows) :
      ∃ m', parse file (m.print inner) = .ok m' ∧ m'.unplaced = m.unplaced := by
    obtain ⟨m', hm', heq⟩ := hbody (.empty file) 2 (by omega)
    refine ⟨m', ?_, ?_⟩
    · have hblank : (start file).step 1 [] = .ok (start file) := rfl
      rw [parse, hlines, hrows, steps_cons_ok hblank]
      exact congrArg (· >>= finish) hm'
    · rw [heq]
      simp [unplaced, append, empty, relocate, hfile]
  exact ⟨hread (lines_rows (.inl rfl)), fun hprompt => hread (lines_rows (.inr ⟨rfl, hm.not_crlf hprompt⟩))⟩

/-- A function that runs a brace, a conditional, and a prompt of two lines. -/
def Module.sample : Module :=
  ⟨"f", [⟨"lib", "l", ⟨1, 1⟩⟩], [], [⟨"r", ["# c"], ["runs x"], ⟨3, 1⟩⟩], [⟨"g", [], ["\x7d"], ⟨6, 1⟩⟩],
    [⟨"w", [], [.unlessRun ⟨"r", ⟨10, 8⟩⟩ ⟨"l.w", ⟨11, 5⟩⟩, .prompt "a\nb" ⟨13, 3⟩], ⟨9, 1⟩⟩]⟩

def Module.sampleSource : Text :=
  "import 'lib' as l\n# c\nrule r \x7b\nruns x\n\x7d\nfunction g() \x7b\n  run \x7d\n\x7d\nworkflow w \x7b\n" ++
    "  if ! ensure r; then\n    run l.w\n  fi\n  prompt \"a\nb\"\n\x7d\n"

theorem Module.parse_print_sample :
    parse "f" sampleSource = .ok sample ∧
    (∃ m', parse "f" (sample.print ['\r', '\n']) = .ok m' ∧
      m'.unplaced = sample.unplaced) ∧
    ∃ m', parse "f" (sample.print ['\n']) = .ok m' ∧ m'.unplaced = sample.unplaced := by
  have hparse : parse "f" sampleSource = .ok sample := by decide
  have hprint := parse_print hparse
  refine ⟨hparse, hprint.1, hprint.2 fun w hw text loc hs => ?_⟩
  have hreturn : '\r' ∉ ("a\nb" : Text) := by decide
  obtain ⟨rfl, -⟩ : text = "a\nb".toList ∧ loc = ⟨13, 3⟩ := by
    rw [mem_singleton.mp hw] at hs
    simpa using hs
  exact fun hin => hreturn (hin.subset (by simp))

end Runbook
