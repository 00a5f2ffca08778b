import Runbook.Proofs.Canonical

/-!
# Where things stand

A place is a line and a column, both counted from one, the column in bytes. What the reader records of a
line stands at the recorded place, and a source that is refused is refused at a place in it.
-/

open List

namespace Runbook
open Runbook.Module

open Text (Clean)

/-! ## Places in a text -/

def IsLine (ls : List Text) (n : Nat) (raw : Text) : Prop := 1 ≤ n ∧ ls[n - 1]? = some raw

/-- The place lies on that line, at one of its bytes or behind the last. -/
def Location.On (ls : List Text) (raw : Text) (loc : Location) : Prop :=
  IsLine ls loc.line raw ∧ 1 ≤ loc.col ∧ loc.col ≤ (Utf8.encode raw).length + 1

/-- What stands at a place: a word, the first character of its line that is not blank, or the line as a
whole. -/
inductive Landmark where
  | word (w : Text)
  | indent
  | line
deriving DecidableEq, Repr

/-- The landmark stands at the column of the line. Words are found in its bytes. -/
def Landmark.At (raw : Text) (col : Nat) : Landmark → Prop
  | .word w => Utf8.encode w <+: (Utf8.encode raw).drop (col - 1)
  | .indent =>
    ∃ margin c rest, raw = margin ++ c :: rest ∧ (∀ d ∈ margin, isBlank d = true) ∧ isBlank c = false ∧
      col = (Utf8.encode margin).length + 1
  | .line => col = 1

def Location.Shows (ls : List Text) (mark : Landmark) (loc : Location) : Prop :=
  ∃ raw, loc.On ls raw ∧ mark.At raw loc.col

/-- The landmarks stand at their places, on lines further and further down between two lines. -/
structure Along (ls : List Text) (above below : Nat) (places : List (Landmark × Location)) : Prop where
  shows : ∀ p ∈ places, p.2.Shows ls p.1
  lower : ∀ p ∈ places, above < p.2.line
  upper : ∀ p ∈ places, p.2.line < below
  sorted : places.Pairwise fun p q => p.2.line < q.2.line

/-! ## The places of a module -/

def Import.place (i : Import) : Landmark × Location := (.word "import", i.loc)

def Routine.place (d : Routine) : Landmark × Location := (.line, d.loc)

def Workflow.place (w : Workflow) : Landmark × Location := (.line, w.loc)

/-- The places of a step, in the order they are read. -/
def Step.places : Step → List (Landmark × Location)
  | .ensure rule _ => [(.word "ensure", rule.loc)]
  | .run workflow => [(.word "run", workflow.loc)]
  | .prompt _ loc => [(.word "prompt", loc)]
  | .shell _ loc => [(.line, loc)]
  | .unlessRun rule workflow => [(.word "ensure", rule.loc), (.word "run", workflow.loc)]
  | .unlessShell rule commands => (.word "ensure", rule.loc) :: commands.map fun c => (.indent, c.loc)

/-- The places of a module, whose declarations end above a line. -/
structure Module.Placed (ls : List Text) (below : Nat) (m : Module) : Prop where
  imports : Along ls 0 below (m.imports.map Import.place)
  rules : Along ls 0 below (m.rules.map Routine.place)
  functions : Along ls 0 below (m.functions.map Routine.place)
  workflows : Along ls 0 below (m.workflows.map Workflow.place)
  steps : ∀ w ∈ m.workflows, Along ls w.loc.line below (w.steps.flatMap Step.places)

/-- The texts of a step that are handed to the shell. -/
def Step.shellTexts : Step → List Text
  | .ensure _ args => args.toList
  | .shell command _ => [command]
  | .unlessShell _ commands => commands.map (·.command)
  | .run _ | .prompt .. | .unlessRun .. => []

/-- Names are identifiers, references are references, and texts are kept without the blanks around them. -/
structure Module.WellFormed (m : Module) : Prop where
  imports : ∀ i ∈ m.imports, isIdentifier i.owner = true
  routines : ∀ d ∈ m.rules ++ m.functions, isIdentifier d.name = true ∧ ∀ t ∈ d.comments ++ d.commands, Clean t
  workflows : ∀ w ∈ m.workflows,
    isIdentifier w.name = true ∧ ∀ t ∈ w.comments ++ w.steps.flatMap Step.shellTexts, Clean t
  references : ∀ p ∈ m.references, isReference p.2.value = true

/-! ## Columns -/

variable {ls : List Text} {above below line col : Nat} {raw : Text}

theorem IsLine.on (h : IsLine ls line raw) (hpos : 1 ≤ col) (hle : col ≤ raw.byteLength + 1) :
    (⟨line, col⟩ : Location).On ls raw :=
  ⟨h, hpos, Text.byteLength_eq raw ▸ hle⟩

theorem IsLine.on_start (h : IsLine ls line raw) : (⟨line, 1⟩ : Location).On ls raw :=
  h.on (Nat.le_refl 1) (Nat.le_add_left 1 _)

theorem IsLine.shows_line (h : IsLine ls line raw) : (⟨line, 1⟩ : Location).Shows ls .line :=
  ⟨raw, h.on_start, rfl⟩

theorem IsLine.shows_word {before word after : Text} (h : IsLine ls line raw)
    (hraw : raw = before ++ (word ++ after)) :
    (⟨line, before.byteLength + 1⟩ : Location).Shows ls (.word word) := by
  refine ⟨raw, h.on (Nat.le_add_left 1 _) ?_, ?_⟩
  · rw [hraw, Text.byteLength_append]
    omega
  · rw [Landmark.At, hraw, Utf8.encode_append, Utf8.encode_append, Nat.add_sub_cancel, Text.byteLength_eq,
      drop_left]
    exact prefix_append ..

theorem IsLine.shows_keyword {keyword : Text} (h : IsLine ls line raw) (hraw : keyword <:+: raw) :
    (⟨line, keywordCol keyword raw⟩ : Location).Shows ls (.word keyword) := by
  obtain ⟨⟨before, after⟩, hcut⟩ := Option.isSome_iff_exists.mp (Text.cut_isSome_iff.mpr hraw)
  have hcol : keywordCol keyword raw = before.byteLength + 1 := by rw [keywordCol, hcut]
  rw [hcol]
  exact h.shows_word (Text.eq_of_cut hcut)

theorem IsLine.shows_indent (h : IsLine ls line raw) (hraw : raw.trim ≠ []) :
    (⟨line, indentCol raw⟩ : Location).Shows ls .indent := by
  let margin : Text := raw.takeWhile isBlank
  have hsplit : margin ++ raw.trimStart = raw := takeWhile_append_dropWhile
  have hlength : raw.byteLength = margin.byteLength + raw.trimStart.byteLength := by
    rw [← Text.byteLength_append, hsplit]
  have hcol : indentCol raw = margin.byteLength + 1 := by
    rw [indentCol, hlength, Nat.add_sub_cancel]
  cases hstart : raw.trimStart with
  | nil =>
    rw [Text.trim, hstart] at hraw
    exact absurd rfl hraw
  | cons c rest =>
    have hc : isBlank c = false := Text.head?_trimStart (by rw [hstart]; rfl)
    refine ⟨raw, h.on (by omega) (by omega), margin, c, rest, ?_, fun d => mem_takeWhile_imp, hc, ?_⟩
    · rw [← hstart, hsplit]
    · rw [← Text.byteLength_eq]
      exact hcol

theorem IsLine.on_keyword (h : IsLine ls line raw) (keyword : Text) :
    (⟨line, keywordCol keyword raw⟩ : Location).On ls raw := by
  unfold keywordCol
  split
  · rename_i before after hcut
    have hlength := congrArg Text.byteLength (Text.eq_of_cut hcut)
    rw [Text.byteLength_append] at hlength
    exact h.on (Nat.le_add_left 1 _) (by omega)
  · exact h.on_start

theorem isInfix_of_afterKeyword {keyword rest : Text} (h : afterKeyword keyword raw.trim = some rest) :
    keyword <:+: raw := by
  unfold afterKeyword at h
  split at h
  · rename_i c tail hp
    have hprefix : keyword <+: raw.trim := ⟨c :: tail, isPrefixOf?_eq_some_iff_append_eq.mp hp⟩
    exact hprefix.isInfix.trans (Text.isInfix_trim raw)
  · cases h

theorem isInfix_of_promptLine (h : BodyLine.of raw.trim = .prompt) : "prompt".toList <:+: raw := by
  unfold BodyLine.of at h
  repeat' split at h
  all_goals cases h
  rename_i hprompt
  obtain ⟨rest, hrest⟩ := Option.isSome_iff_exists.mp hprompt
  exact isInfix_of_afterKeyword hrest

theorem isInfix_of_runLine {target : Text} (h : BodyLine.of raw.trim = .run target) : "run".toList <:+: raw := by
  unfold BodyLine.of at h
  repeat' split at h
  all_goals cases h
  rename_i hrun
  exact isInfix_of_afterKeyword hrun

theorem isInfix_of_conditionalRule {rule : Text} (h : conditionalRule raw.trim = some rule) :
    "ensure".toList <:+: raw := by
  simp only [conditionalRule, Option.bind_eq_bind, Option.bind_eq_some_iff] at h
  obtain ⟨rest, hif, -, -, rest', hnot, tail, hensure, -⟩ := h
  have hkeyword : "ensure".toList <:+: rest' :=
    (List.IsPrefix.isInfix ⟨tail, isPrefixOf?_eq_some_iff_append_eq.mp hensure⟩).trans
      (Text.trimStart_suffix rest').isInfix
  have hbang : rest' <:+: rest :=
    (List.IsSuffix.isInfix ⟨['!'], isPrefixOf?_eq_some_iff_append_eq.mp hnot⟩).trans
      (Text.trimStart_suffix rest).isInfix
  have hline : rest <:+: raw :=
    (List.IsSuffix.isInfix ⟨"if".toList, isPrefixOf?_eq_some_iff_append_eq.mp hif⟩).trans
      (Text.isInfix_trim raw)
  exact (hkeyword.trans hbang).trans hline

/-! ## Lists of places -/

theorem Along.nil : Along ls above below [] := ⟨by simp, by simp, by simp, .nil⟩

theorem Along.mono {places : List (Landmark × Location)} {n : Nat} (h : Along ls above below places)
    (hn : below ≤ n) : Along ls above n places :=
  { h with upper := fun p hp => Nat.lt_of_lt_of_le (h.upper p hp) hn }

theorem Along.concat {places : List (Landmark × Location)} {mark : Landmark} (h : Along ls above line places)
    (habove : above < line) (hmark : (⟨line, col⟩ : Location).Shows ls mark) :
    Along ls above (line + 1) (places ++ [(mark, ⟨line, col⟩)]) where
  shows := forall_mem_concat h.shows hmark
  lower := forall_mem_concat h.lower habove
  upper := forall_mem_concat (h.mono (Nat.le_succ line)).upper (Nat.lt_succ_self line)
  sorted := pairwise_append.mpr ⟨h.sorted, pairwise_singleton .., fun q hq _ hx =>
    mem_singleton.mp hx ▸ h.upper q hq⟩

theorem Module.Placed.mono {m : Module} {n : Nat} (h : m.Placed ls below) (hn : below ≤ n) : m.Placed ls n :=
  ⟨h.imports.mono hn, h.rules.mono hn, h.functions.mono hn, h.workflows.mono hn,
    fun w hw => (h.steps w hw).mono hn⟩

/-! ## Reading keeps the places -/

/-- The declaration that has been opened stands below all others. -/
structure Opened (ls : List Text) (line : Nat) (m : Module) (head : Heading) : Prop where
  placed : m.Placed ls head.line
  lt : head.line < line
  shows : head.loc.Shows ls .line

/-- The steps that have been read so far, the last of them perhaps in part. -/
structure Underway (ls : List Text) (line : Nat) (m : Module) (head : Heading) (steps : List Step) : Prop
    extends Opened ls line m head where
  steps : Along ls head.line line (steps.flatMap Step.places)

/-- The places that the reader holds before it reads a line. -/
def Block.Placed (ls : List Text) (line : Nat) (m : Module) : Block → Prop
  | .top => m.Placed ls line
  | .rule head _ | .function head _ => Opened ls line m head
  | .workflow head steps => Underway ls line m head steps
  | .conditional head steps start check commands =>
    Underway ls line m head (steps ++ [.unlessShell check commands]) ∧ start = check.loc.line
  | .conditionalEnd head steps start check call =>
    Underway ls line m head (steps ++ [.unlessRun check call]) ∧ start = check.loc.line
  | .prompt head steps loc text => Underway ls line m head (steps ++ [.prompt text loc])

def Reader.Placed (ls : List Text) (line : Nat) (r : Reader) : Prop := r.block.Placed ls line r.module

/-- A line leaves the reader with places above the next line, or is refused at a place in the text. -/
def Reader.Outcome (ls : List Text) (line : Nat) : Except ParseError Reader → Prop
  | .ok r => r.Placed ls line
  | .error e => ∃ raw, e.loc.On ls raw

section

variable {m : Module} {head : Heading} {steps steps' : List Step}

theorem Opened.next (h : Opened ls line m head) : Opened ls (line + 1) m head :=
  { h with lt := Nat.lt_succ_of_lt h.lt }

theorem Underway.next (h : Underway ls line m head steps) : Underway ls (line + 1) m head steps :=
  { h.toOpened.next with steps := h.steps.mono (Nat.le_succ line) }

theorem Underway.congr (h : Underway ls line m head steps)
    (hs : steps'.flatMap Step.places = steps.flatMap Step.places) : Underway ls line m head steps' :=
  { h.toOpened with steps := hs ▸ h.steps }

theorem Underway.concat {mark : Landmark} (h : Underway ls line m head steps)
    (hmark : (⟨line, col⟩ : Location).Shows ls mark)
    (hs : steps'.flatMap Step.places = steps.flatMap Step.places ++ [(mark, ⟨line, col⟩)]) :
    Underway ls (line + 1) m head steps' :=
  { h.toOpened.next with steps := hs ▸ h.steps.concat h.lt hmark }

theorem Underway.push {mark : Landmark} {s : Step} (h : Underway ls line m head steps)
    (hmark : (⟨line, col⟩ : Location).Shows ls mark) (hs : s.places = [(mark, ⟨line, col⟩)]) :
    Underway ls (line + 1) m head (steps ++ [s]) :=
  h.concat hmark (by simp [hs])

theorem Opened.concat {places : List (Landmark × Location)} (h : Opened ls line m head)
    (hp : Along ls 0 head.line places) : Along ls 0 (line + 1) (places ++ [(.line, head.loc)]) := by
  obtain ⟨raw, ⟨hl, -⟩, -⟩ := h.shows
  exact (hp.concat hl.1 h.shows).mono (Nat.succ_le_succ (Nat.le_of_lt h.lt))

theorem Opened.placed_next (h : Opened ls line m head) : m.Placed ls (line + 1) :=
  h.placed.mono (Nat.le_succ_of_le (Nat.le_of_lt h.lt))

theorem Block.Placed.next {b : Block} (h : b.Placed ls line m) : b.Placed ls (line + 1) m := by
  cases b with
  | top => exact Placed.mono h (Nat.le_succ line)
  | rule head commands => exact Opened.next h
  | function head commands => exact Opened.next h
  | workflow head steps => exact Underway.next h
  | conditional head steps start check commands => exact ⟨h.1.next, h.2⟩
  | conditionalEnd head steps start check call => exact ⟨h.1.next, h.2⟩
  | prompt head steps loc text => exact Underway.next h

end

namespace Reader

variable {r : Reader} {head : Heading} {steps : List Step} {commands : List Text}

theorem outcome_fail (h : (⟨line, col⟩ : Location).On ls raw) (n : Nat) (cause : ParseCause) :
    Outcome ls n (fail line col cause) :=
  ⟨raw, h⟩

theorem openBlock_placed {m : Module} {comments : List Text} {text decl : Text} {exported : Bool} {b : Block}
    (hm : m.Placed ls line) (hl : IsLine ls line raw) (h : openBlock line comments text exported decl = .ok b) :
    b.Placed ls (line + 1) m := by
  have hopened (name : Text) : Opened ls (line + 1) m ⟨name, comments, exported, line⟩ :=
    ⟨hm, Nat.lt_succ_self line, hl.shows_line⟩
  simp only [openBlock] at h
  split at h
  · split at h
    · cases h
      exact hopened _
    · cases h
  · split at h
    · split at h
      · split at h
        · cases h
        · cases h
          exact hopened _
      · cases h
    · split at h
      · split at h
        · cases h
          exact { hopened _ with steps := .nil }
        · cases h
      · cases h

theorem loc_of_openBlock {comments : List Text} {text decl : Text} {exported : Bool} {e : ParseError}
    (h : openBlock line comments text exported decl = .error e) : e.loc = ⟨line, 1⟩ := by
  simp only [openBlock, fail] at h
  repeat' split at h
  all_goals cases h
  all_goals rfl

theorem topLine_outcome (h : r.module.Placed ls line) (hb : r.block = .top) (hl : IsLine ls line raw) :
    Outcome ls (line + 1) (r.topLine line raw) := by
  have hr : r.Placed ls (line + 1) := by
    rw [Placed, hb]
    exact h.mono (Nat.le_succ line)
  simp only [topLine]
  split
  · exact hr
  · split
    · exact hr
    · exact hr
    · rename_i rest hof
      split
      · have hword := hl.shows_keyword (isInfix_of_afterKeyword (afterKeyword_of_topLine hof))
        have himports := h.imports.concat hl.1 hword
        show Block.Placed ls (line + 1) _ r.block
        rw [hb]
        exact { h.mono (Nat.le_succ line) with imports := map_append ▸ himports }
      · exact outcome_fail hl.on_start ..
    · rename_i exported decl hof
      cases hopen : openBlock line r.comments raw.trim exported decl with
      | ok b => exact openBlock_placed h hl hopen
      | error e =>
        refine ⟨raw, ?_⟩
        rw [loc_of_openBlock hopen]
        exact hl.on_start

theorem ruleLine_outcome (h : r.Placed ls line) (hb : Opened ls line r.module head) (hl : IsLine ls line raw) :
    Outcome ls (line + 1) (r.ruleLine head commands line raw) := by
  simp only [ruleLine]
  split
  · exact h.next
  · split
    · have hrules := hb.concat hb.placed.rules
      exact show Placed .. from { hb.placed_next with rules := map_append ▸ hrules }
    · split
      · exact outcome_fail (hl.on_keyword "run") ..
      · exact hb.next

theorem functionLine_placed (h : r.Placed ls line) (hb : Opened ls line r.module head) :
    (r.functionLine head commands raw).Placed ls (line + 1) := by
  simp only [functionLine]
  split
  · exact h.next
  · split
    · have hfunctions := hb.concat hb.placed.functions
      exact show Placed .. from { hb.placed_next with functions := map_append ▸ hfunctions }
    · exact hb.next

theorem closeWorkflow_placed (h : Underway ls line r.module head steps) :
    (r.closeWorkflow head steps).Placed ls (line + 1) := by
  have hworkflows := h.toOpened.concat h.placed.workflows
  exact show Placed .. from
    { h.placed_next with
      workflows := map_append ▸ hworkflows
      steps := forall_mem_concat h.placed_next.steps h.next.steps }

theorem promptStep_outcome {loc : Location} {text rest : Text}
    (h : Underway ls (line + 1) r.module head (steps ++ [.prompt text loc])) (hl : IsLine ls line raw) :
    Outcome ls (line + 1) (r.promptStep head steps loc text line raw rest) := by
  simp only [promptStep]
  split
  · exact h
  · exact outcome_fail (hl.on (Nat.le_add_left 1 _) (Nat.succ_le_succ (Nat.sub_le ..))) ..

theorem openPrompt_outcome (h : Underway ls line r.module head steps) (hl : IsLine ls line raw)
    (hraw : "prompt".toList <:+: raw) : Outcome ls (line + 1) (r.openPrompt head steps line raw) := by
  obtain ⟨⟨before, after⟩, hcut⟩ := Option.isSome_iff_exists.mp (Text.cut_isSome_iff.mpr hraw)
  have hshows := hl.shows_word (Text.eq_of_cut hcut)
  have hnext (text : Text) : Underway ls (line + 1) r.module head
      (steps ++ [.prompt text ⟨line, before.byteLength + 1⟩]) := h.push hshows rfl
  simp only [openPrompt, hcut, Option.getD_some]
  split
  · split
    · exact promptStep_outcome (hnext _) hl
    · exact hnext _
  · obtain ⟨raw', hon, -⟩ := hshows
    exact outcome_fail hon ..

theorem promptLine_outcome {loc : Location} {text : Text}
    (h : Underway ls line r.module head (steps ++ [.prompt text loc])) (hl : IsLine ls line raw) :
    Outcome ls (line + 1) (r.promptLine head steps loc text line raw) := by
  -- further lines change the text of the prompt and not its place
  have hnext (more : Text) : Underway ls (line + 1) r.module head (steps ++ [.prompt more loc]) :=
    h.next.congr (by simp [Step.places])
  simp only [promptLine]
  split
  · exact promptStep_outcome (hnext _) hl
  · exact hnext _

theorem workflowLine_outcome (h : r.Placed ls line) (hb : Underway ls line r.module head steps)
    (hl : IsLine ls line raw) : Outcome ls (line + 1) (r.workflowLine head steps line raw) := by
  simp only [workflowLine]
  split
  · exact h.next
  · exact closeWorkflow_placed hb
  · exact hb.push hl.shows_line rfl
  · exact hb.push hl.shows_line rfl
  · rename_i rule hof
    have hensure := hl.shows_keyword (isInfix_of_conditionalRule (conditionalRule_of_bodyLine hof))
    exact ⟨hb.push hensure rfl, rfl⟩
  · rename_i hof
    exact openPrompt_outcome hb hl (isInfix_of_promptLine hof)
  · rename_i body hof
    split
    · exact hb.push (hl.shows_keyword (isInfix_of_afterKeyword (afterKeyword_of_bodyLine hof))) rfl
    · exact outcome_fail hl.on_start ..
  · rename_i target hof
    split
    · exact hb.push (hl.shows_keyword (isInfix_of_runLine hof)) rfl
    · exact outcome_fail hl.on_start ..

theorem of_conditionalRun {commands : List ShellLine} {text target : Text}
    (h : conditionalRun commands text = some target) : commands = [] ∧ afterKeyword "run" text = some target := by
  unfold conditionalRun at h
  split at h
  · exact ⟨by assumption, (Option.filter_eq_some_iff.mp h).1⟩
  · cases h

theorem conditionalLine_placed {start : Nat} {check : Reference} {commands : List ShellLine}
    (h : r.Placed ls line) (hb : (Block.conditional head steps start check commands).Placed ls line r.module)
    (hl : IsLine ls line raw) :
    (r.conditionalLine head steps start check commands line raw).Placed ls (line + 1) := by
  simp only [conditionalLine]
  split
  · exact h.next
  · rename_i hblank
    split
    · exact hb.1.next
    · split
      · rename_i target hrun
        obtain ⟨rfl, hafter⟩ := of_conditionalRun hrun
        have hword := hl.shows_keyword (isInfix_of_afterKeyword hafter)
        exact ⟨hb.1.concat hword (by simp [Step.places]), hb.2⟩
      · have hindent := hl.shows_indent fun he => hblank (.inl he)
        exact ⟨hb.1.concat hindent (by simp [Step.places]), hb.2⟩

theorem conditionalEndLine_outcome {start : Nat} {check call : Reference} (h : r.Placed ls line)
    (hb : (Block.conditionalEnd head steps start check call).Placed ls line r.module) (hl : IsLine ls line raw) :
    Outcome ls (line + 1) (r.conditionalEndLine head steps check call line raw) := by
  simp only [conditionalEndLine]
  split
  · exact h.next
  · split
    · exact hb.1.next
    · exact outcome_fail hl.on_start ..

theorem step_outcome (h : r.Placed ls line) (hl : IsLine ls line raw) :
    Outcome ls (line + 1) (r.step line raw) := by
  have hb := h
  rw [Placed] at hb
  simp only [step]
  generalize hblock : r.block = b at hb ⊢
  cases b with
  | top => exact topLine_outcome hb hblock hl
  | rule head commands => exact ruleLine_outcome h hb hl
  | function head commands => exact functionLine_placed h hb
  | workflow head steps => exact workflowLine_outcome h hb hl
  | conditional head steps start check commands => exact conditionalLine_placed h hb hl
  | conditionalEnd head steps start check call => exact conditionalEndLine_outcome h hb hl
  | prompt head steps loc text => exact promptLine_outcome hb hl

theorem steps_outcome {done raws : List Text} (h : r.Placed (done ++ raws) (done.length + 1)) :
    Outcome (done ++ raws) ((done ++ raws).length + 1) (r.steps (done.length + 1) raws) := by
  induction raws generalizing r done with
  | nil =>
    rw [append_nil] at h ⊢
    exact h
  | cons raw rest ih =>
    have hl : IsLine (done ++ raw :: rest) (done.length + 1) raw := ⟨Nat.le_add_left 1 _, by simp⟩
    have hstep := step_outcome h hl
    rw [steps]
    cases hr : r.step (done.length + 1) raw with
    | error e =>
      rw [hr] at hstep
      exact hstep
    | ok next =>
      rw [hr] at hstep
      have hlength : done.length + 1 = (done ++ [raw]).length := by simp
      rw [append_cons, hlength] at hstep ⊢
      exact ih hstep

/-- A source may end only at a place where no block is open; it is refused where the open block starts. -/
theorem finish_outcome (h : r.Placed ls line) :
    (∀ m, r.finish = .ok m → m.Placed ls line) ∧ ∀ e, r.finish = .error e → ∃ raw, e.loc.On ls raw := by
  refine ⟨fun m hm => ?_, fun e he => ?_⟩
  · obtain ⟨hb, rfl⟩ := of_finish_ok hm
    rwa [Placed, hb] at h
  · have hstart {loc : Location} {mark : Landmark} (hloc : loc.Shows ls mark) :
        ∃ raw, (⟨loc.line, 1⟩ : Location).On ls raw := by
      obtain ⟨raw, hon, -⟩ := hloc
      exact ⟨raw, hon.1.on_start⟩
    have hpending {head : Heading} {steps : List Step} {s : Step} {p : Landmark × Location}
        (hs : Underway ls line r.module head (steps ++ [s])) (hp : p ∈ s.places) : p.2.Shows ls p.1 :=
      hs.steps.shows p (mem_flatMap.mpr ⟨s, by simp, hp⟩)
    simp only [finish] at he
    rw [Placed] at h
    generalize r.block = b at h he
    cases b with
    | top => cases he
    | rule head commands =>
      cases he
      exact hstart h.shows
    | function head commands =>
      cases he
      exact hstart h.shows
    | workflow head steps =>
      cases he
      exact hstart h.shows
    | conditional head steps start check commands =>
      cases he
      rw [h.2]
      exact hstart (hpending h.1 (mem_cons_self ..))
    | conditionalEnd head steps start check call =>
      cases he
      rw [h.2]
      exact hstart (hpending h.1 (mem_cons_self ..))
    | prompt head steps loc text =>
      cases he
      obtain ⟨raw, hon, -⟩ := hpending h (mem_cons_self ..)
      exact ⟨raw, hon⟩

end Reader

theorem Step.Canonical.isReference {s : Step} (h : s.Canonical) : ∀ p ∈ s.references, isReference p.2.value = true := by
  cases s <;> simp_all [Step.Canonical, Step.references]

theorem Step.Canonical.clean {s : Step} (h : s.Canonical) : ∀ t ∈ s.shellTexts, Clean t := by
  cases s with
  | ensure check args => exact fun t ht => h.2 t (Option.mem_toList.mp ht)
  | shell command loc => exact forall_mem_singleton.mpr h.1
  | unlessShell check commands => exact forall_mem_map.mpr fun c hc => (h.2.1 c hc).1
  | run call => exact forall_mem_nil _
  | prompt text loc => exact forall_mem_nil _
  | unlessRun check call => exact forall_mem_nil _

theorem Module.Canonical.wellFormed {m : Module} (h : m.Canonical) : m.WellFormed where
  imports i hi := (h.imports i hi).2
  routines := forall_mem_append.mpr
    ⟨fun d hd =>
      have ⟨hd, hcommands⟩ := h.rules d hd
      ⟨hd.1, forall_mem_append.mpr ⟨fun t ht => (hd.2 t ht).1, fun t ht => (hcommands t ht).1⟩⟩,
    fun d hd =>
      have ⟨hd, hcommands⟩ := h.functions d hd
      ⟨hd.1, forall_mem_append.mpr ⟨fun t ht => (hd.2 t ht).1, hcommands⟩⟩⟩
  workflows w hw :=
    have ⟨hd, hsteps⟩ := h.workflows w hw
    ⟨hd.1, forall_mem_append.mpr ⟨fun t ht => (hd.2 t ht).1, fun t ht =>
      have ⟨s, hs, ht⟩ := mem_flatMap.mp ht
      (hsteps s hs).clean t ht⟩⟩
  references p hp :=
    have ⟨w, hw, hp⟩ := mem_flatMap.mp hp
    have ⟨s, hs, hp⟩ := mem_flatMap.mp hp
    ((h.workflows w hw).2 s hs).isReference p hp

/-- A source that is read gives a well-formed module whose places all show what they stand for. A source
that is not read is refused at a place in it. -/
theorem Module.parse_places (file : Path) (source : Text) :
    (∀ m, parse file source = .ok m →
      m.WellFormed ∧ m.Placed source.lines (source.lines.length + 1)) ∧
    ∀ e, parse file source = .error e → ∃ raw, e.loc.On source.lines raw := by
  have hstart : (Reader.start file).Placed source.lines 1 :=
    show Placed .. from ⟨.nil, .nil, .nil, .nil, by simp [Reader.start, empty]⟩
  have hsteps : Reader.Outcome source.lines (source.lines.length + 1)
      ((Reader.start file).steps 1 source.lines) := @Reader.steps_outcome _ [] source.lines hstart
  refine ⟨fun m hm => ⟨(canonical_of_parse hm).wellFormed, ?_⟩, fun e he => ?_⟩
  · obtain ⟨r, hr, hm⟩ := of_bind_ok hm
    rw [hr] at hsteps
    exact (Reader.finish_outcome hsteps).1 m hm
  · rcases of_bind_error he with hr | ⟨r, hr, he⟩
    · rw [hr] at hsteps
      exact hsteps
    · rw [hr] at hsteps
      exact (Reader.finish_outcome hsteps).2 e he

def Module.indentedSource : Text :=
  "\u3000import lib as l\n# c\nworkflow w \x7b\n\u00a0ensure l.r x\n  if ! ensure l.r; then\n\u3000echo é\n" ++
    "\trun l.w\n  fi\n  prompt \"a\nb\"\n  run l.w\n\x7d\n"

def Module.indented : Module :=
  ⟨"f", [⟨"lib", "l", ⟨1, 4⟩⟩], [], [], [],
    [⟨"w", ["# c"],
      [.ensure ⟨"l.r", ⟨4, 3⟩⟩ (some "x"),
        .unlessShell ⟨"l.r", ⟨5, 8⟩⟩ [⟨"echo é", ⟨6, 4⟩⟩, ⟨"run l.w", ⟨7, 2⟩⟩],
        .prompt "a\nb" ⟨9, 3⟩, .run ⟨"l.w", ⟨11, 3⟩⟩],
      ⟨3, 1⟩⟩]⟩

theorem Module.parse_places_indented :
    (parse "f" indentedSource = .ok indented ∧ indented.WellFormed ∧
      indented.Placed (Text.lines indentedSource) 13) ∧
    parse "f" "workflow w \x7b\n\u3000prompt \"é\" é" = .error ⟨⟨2, 16⟩, .promptTail⟩ ∧
    ∃ raw, (⟨2, 16⟩ : Location).On (Text.lines "workflow w \x7b\n\u3000prompt \"é\" é") raw := by
  have hparse : parse "f" indentedSource = .ok indented := by decide +kernel
  have hfail : parse "f" "workflow w \x7b\n\u3000prompt \"é\" é" = .error ⟨⟨2, 16⟩, .promptTail⟩ := by decide
  have hplaces := (parse_places "f" indentedSource).1 _ hparse
  have hrefused := (parse_places "f" "workflow w \x7b\n\u3000prompt \"é\" é").2 _ hfail
  exact ⟨⟨hparse, hplaces⟩, hfail, hrefused⟩

end Runbook
