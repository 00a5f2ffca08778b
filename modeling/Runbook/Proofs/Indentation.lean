import Runbook.Proofs.Relocation

/-!
# Indentation

The reader looks at a line without the blanks around it, except for columns and for the text of a prompt
that goes on over several lines. Sources that differ in those blanks alone give the same module but for the
columns, or are refused on the same line for the same cause.
-/

open List

namespace Runbook
open Runbook.Module

/-! ## Blanks around a line -/

namespace Text

theorem exists_blanks_trimEnd (t : Text) : ∃ tail, t = t.trimEnd ++ tail ∧ ∀ c ∈ tail, isBlank c = true := by
  induction t with
  | nil => exact ⟨[], rfl, by simp⟩
  | cons c rest ih =>
    obtain ⟨tail, hrest, htail⟩ := ih
    simp only [trimEnd]
    split
    · rename_i hnil
      rw [hnil, nil_append] at hrest
      by_cases hc : isBlank c = true
      · refine ⟨c :: rest, by simp [hc], ?_⟩
        rw [hrest]
        exact forall_mem_cons.mpr ⟨hc, htail⟩
      · exact ⟨rest, by simp [hc], by rwa [hrest]⟩
    · rename_i d more hd
      refine ⟨tail, ?_, htail⟩
      rw [hd] at hrest
      exact congrArg (c :: ·) hrest

theorem exists_blanks_trim (t : Text) : ∃ margin tail, t = margin ++ (t.trim ++ tail) ∧
    (∀ c ∈ margin, isBlank c = true) ∧ ∀ c ∈ tail, isBlank c = true := by
  obtain ⟨tail, hstart, htail⟩ := exists_blanks_trimEnd t.trimStart
  refine ⟨t.takeWhile isBlank, tail, ?_, fun c => mem_takeWhile_imp, htail⟩
  have hsplit : t.takeWhile isBlank ++ t.trimStart = t := takeWhile_append_dropWhile
  rw [trim, ← hstart, hsplit]

theorem trim_append_blank {tail : Text} (h : ∀ c ∈ tail, isBlank c = true) (t : Text) :
    trim (t ++ tail) = trim t := by
  by_cases ht : ∀ c ∈ t, isBlank c = true
  · have hall : ∀ c ∈ t ++ tail, isBlank c = true := fun c hc => (mem_append.mp hc).elim (ht c) (h c)
    have hnil {s : Text} (hs : ∀ c ∈ s, isBlank c = true) : trim s = [] := by
      simpa [trim, trimStart, trimEnd] using trim_append hs []
    rw [hnil hall, hnil ht]
  · have hstart : trimStart (t ++ tail) = trimStart t ++ tail := by
      rw [trimStart, dropWhile_append, if_neg]
      · rfl
      · intro hnil
        exact ht (dropWhile_eq_nil_iff.mp (by simpa using hnil))
    rw [trim, hstart, trimEnd_append_blank h, trim]

end Text

/-! ## Quotes between blanks -/

theorem cutQuote_eq_none {t : Text} (h : '"' ∉ t) (before : Text) : cutQuote before t = none := by
  induction t generalizing before with
  | nil => rfl
  | cons c rest ih =>
    obtain ⟨hc, hrest⟩ := not_or.mp (mem_cons.not.mp h)
    simp [cutQuote, Ne.symm hc, ih hrest]

theorem cutQuote_append {tail : Text} (h : '"' ∉ tail) (before t : Text) :
    cutQuote before (t ++ tail) = (cutQuote before t).map fun p => (p.1, p.2 ++ tail) := by
  induction t generalizing before with
  | nil => exact cutQuote_eq_none h before
  | cons c rest ih =>
    simp only [cons_append, cutQuote, ih]
    split
    · rfl
    · cases cutQuote (c :: before) rest <;> rfl

theorem cutQuote_congr {before before' : Text}
    (h : (before.takeWhile (· == '\\')).length % 2 = (before'.takeWhile (· == '\\')).length % 2) (t : Text) :
    cutQuote before t = cutQuote before' t := by
  induction t generalizing before before' with
  | nil => rfl
  | cons c rest ih =>
    have hnext : ((c :: before).takeWhile (· == '\\')).length % 2 =
        ((c :: before').takeWhile (· == '\\')).length % 2 := by
      by_cases hc : c = '\\'
      · simp only [hc, takeWhile_cons, beq_self_eq_true, ↓reduceIte, length_cons]
        omega
      · simp [hc]
    simp only [cutQuote, h, ih hnext]

theorem cutQuote_margin {margin : Text} (h : ∀ c ∈ margin, isBlank c = true) (t : Text) :
    cutQuote [] (margin ++ t) = (cutQuote [] t).map fun p => (margin ++ p.1, p.2) := by
  induction margin with
  | nil =>
    rw [nil_append]
    cases cutQuote [] t <;> rfl
  | cons c rest ih =>
    have hblank := h c mem_cons_self
    have hquote : c ≠ '"' := by
      rintro rfl
      cases hblank
    have hback : c ≠ '\\' := by
      rintro rfl
      cases hblank
    have hpassed : cutQuote [c] (rest ++ t) = cutQuote [] (rest ++ t) :=
      cutQuote_congr (by simp [hback]) _
    rw [cons_append, cutQuote, if_neg fun hc => hquote hc.1, hpassed,
      ih fun d hd => h d (mem_cons_of_mem c hd)]
    cases cutQuote [] t <;> rfl

theorem quote_not_mem_of_blank {t : Text} (h : ∀ c ∈ t, isBlank c = true) : '"' ∉ t := by
  intro hq
  cases h _ hq

/-- Whether a line closes a quote, and what follows but for blanks, is the same for all blanks around it. -/
theorem cutQuote_alike {raw raw' : Text} (h : raw'.trim = raw.trim) :
    (cutQuote [] raw').map (fun p => p.2.trim) = (cutQuote [] raw).map fun p => p.2.trim := by
  have hcore (t : Text) : (cutQuote [] t).map (fun p => p.2.trim) = (cutQuote [] t.trim).map fun p => p.2.trim := by
    obtain ⟨margin, tail, ht, hmargin, htail⟩ := Text.exists_blanks_trim t
    have hcut : cutQuote [] t = (cutQuote [] t.trim).map fun p => (margin ++ p.1, p.2 ++ tail) := by
      conv_lhs => rw [ht]
      rw [cutQuote_margin hmargin, cutQuote_append (quote_not_mem_of_blank htail)]
      cases cutQuote [] t.trim <;> rfl
    rw [hcut]
    cases cutQuote [] t.trim with
    | none => rfl
    | some p => exact congrArg some (Text.trim_append_blank htail p.2)
  rw [hcore raw', hcore raw, h]

/-! ## The line that a prompt starts on -/

/-- What follows the keyword of a prompt in a trimmed line. -/
def promptArgument (text : Text) : Text := Text.trimStart (text.drop 6)

theorem cut_promptLine {raw : Text} (h : BodyLine.of raw.trim = .prompt) : ∃ margin after tail,
    Text.cut "prompt" raw = some (margin, after) ∧ after.trimStart = promptArgument raw.trim ++ tail ∧
      (∀ c ∈ tail, isBlank c = true) ∧ promptArgument raw.trim ≠ [] := by
  obtain ⟨c, rest, hline, hc, hrest⟩ : ∃ (c : Char) (rest : Text), raw.trim = "prompt".toList ++ c :: rest ∧
      isBlank c = true ∧ rest.trimStart ≠ [] := by
    unfold BodyLine.of at h
    repeat' split at h
    all_goals cases h
    rename_i hprompt
    unfold afterKeyword at hprompt
    split at hprompt
    · rename_i c rest hp
      split at hprompt
      · rename_i hcond
        refine ⟨c, rest, (isPrefixOf?_eq_some_iff_append_eq.mp hp).symm, hcond.1, fun hnil => hcond.2 ?_⟩
        rw [Text.trim, hnil]
        rfl
      · cases hprompt
    · cases hprompt
  obtain ⟨margin, tail, hraw, hmargin, htail⟩ := Text.exists_blanks_trim raw
  have hword : 'p' ∉ margin := fun hp => by cases hmargin _ hp
  have harg : promptArgument raw.trim = rest.trimStart := by
    rw [promptArgument, hline]
    exact dropWhile_cons_of_pos hc
  refine ⟨margin, c :: rest ++ tail, tail, ?_, ?_, htail, by rwa [harg]⟩
  · rw [hraw, hline, List.append_assoc]
    exact Text.cut_append hword _
  · have hstart : Text.trimStart (c :: rest ++ tail) = Text.trimStart (rest ++ tail) := dropWhile_cons_of_pos hc
    rw [hstart, harg, Text.trimStart, dropWhile_append, if_neg]
    · rfl
    · intro hnil
      exact hrest (List.isEmpty_iff.mp hnil)

namespace Reader

variable {raw : Text} (hline : BodyLine.of raw.trim = .prompt)

include hline

theorem openPrompt_form (harg : ∀ rest, promptArgument raw.trim ≠ '"' :: rest) : ∃ col, ∀ r head steps line,
    openPrompt r head steps line raw = fail line col .promptForm := by
  obtain ⟨margin, after, tail, hcut, hafter, -, hne⟩ := cut_promptLine hline
  obtain ⟨c, rest, hcons⟩ := exists_cons_of_ne_nil hne
  have hc : c ≠ '"' := by
    rintro rfl
    exact harg rest hcons
  refine ⟨margin.byteLength + 1, fun r head steps line => ?_⟩
  simp only [openPrompt, hcut, Option.getD_some, hafter, hcons, cons_append]
  split
  · rename_i heq
    exact absurd (List.cons.inj heq).1 hc
  · rfl

theorem openPrompt_closed {rest text behind : Text} (harg : promptArgument raw.trim = '"' :: rest)
    (hcut : cutQuote [] rest = some (text, behind)) : ∃ col tail, (∀ c ∈ tail, isBlank c = true) ∧
    ∀ r head steps line, openPrompt r head steps line raw =
      promptStep r head steps ⟨line, col⟩ text line raw (behind ++ tail) := by
  obtain ⟨margin, after, tail, hword, hafter, htail, -⟩ := cut_promptLine hline
  refine ⟨margin.byteLength + 1, tail, htail, fun r head steps line => ?_⟩
  have hclose : cutQuote [] (rest ++ tail) = some (text, behind ++ tail) := by
    rw [cutQuote_append (quote_not_mem_of_blank htail), hcut]
    rfl
  simp only [openPrompt, hword, Option.getD_some, hafter, harg, cons_append, hclose]

theorem openPrompt_open {rest : Text} (harg : promptArgument raw.trim = '"' :: rest)
    (hcut : cutQuote [] rest = none) : ∃ col text, ∀ r head steps line,
    openPrompt r head steps line raw = .ok { r with block := .prompt head steps ⟨line, col⟩ text } := by
  obtain ⟨margin, after, tail, hword, hafter, htail, -⟩ := cut_promptLine hline
  refine ⟨margin.byteLength + 1, rest ++ tail, fun r head steps line => ?_⟩
  have hopen : cutQuote [] (rest ++ tail) = none := by
    rw [cutQuote_append (quote_not_mem_of_blank htail), hcut]
    rfl
  simp only [openPrompt, hword, Option.getD_some, hafter, harg, cons_append, hopen]

end Reader

/-! ## Without columns -/

def Location.onLine (l : Location) : Location := ⟨l.line, 0⟩

@[simp]
theorem Location.onLine_onLine (l : Location) : l.onLine.onLine = l.onLine := rfl

@[simp]
theorem Location.onLine_mk (line col : Nat) : (⟨line, col⟩ : Location).onLine = ⟨line, 0⟩ := rfl

@[simp]
theorem Reference.relocate_onLine (r : Reference) : (r.relocate .onLine).relocate .onLine = r.relocate .onLine := rfl

@[simp]
theorem Import.relocate_onLine (i : Import) : (i.relocate .onLine).relocate .onLine = i.relocate .onLine := rfl

@[simp]
theorem Routine.relocate_onLine (d : Routine) : (d.relocate .onLine).relocate .onLine = d.relocate .onLine := rfl

@[simp]
theorem ShellLine.relocate_onLine (l : ShellLine) : (l.relocate .onLine).relocate .onLine = l.relocate .onLine := rfl

@[simp]
theorem Step.relocate_onLine (s : Step) : (s.relocate .onLine).relocate .onLine = s.relocate .onLine := by
  cases s <;> simp [relocate]

@[simp]
theorem Workflow.relocate_onLine (w : Workflow) : (w.relocate .onLine).relocate .onLine = w.relocate .onLine := by
  simp [relocate]

@[simp]
theorem Module.relocate_onLine (m : Module) : (m.relocate .onLine).relocate .onLine = m.relocate .onLine := by
  simp [relocate]

def Block.onLine : Block → Block
  | .top => .top
  | .rule head commands => .rule head commands
  | .function head commands => .function head commands
  | .workflow head steps => .workflow head (steps.map (·.relocate .onLine))
  | .conditional head steps line check commands =>
    .conditional head (steps.map (·.relocate .onLine)) line (check.relocate .onLine)
      (commands.map (·.relocate .onLine))
  | .conditionalEnd head steps line check call =>
    .conditionalEnd head (steps.map (·.relocate .onLine)) line (check.relocate .onLine) (call.relocate .onLine)
  | .prompt head steps loc text => .prompt head (steps.map (·.relocate .onLine)) loc.onLine text

@[simp]
theorem Block.onLine_onLine (b : Block) : b.onLine.onLine = b.onLine := by
  cases b <;> simp [onLine]

namespace Reader

variable {raw raw' : Text} {r next r' : Reader} {line n : Nat} {ls rest : List Text}

def onLine (r : Reader) : Reader := ⟨r.module.relocate .onLine, r.comments, r.block.onLine⟩

theorem promptStart_onLine (r : Reader) : r.onLine.promptStart = r.promptStart := by
  cases hb : r.block <;> simp [promptStart, onLine, hb, Block.onLine, Location.onLine]

def lined (result : Except ParseError Reader) : Except ParseError Reader :=
  (result.map onLine).mapError (·.relocate .onLine)

@[simp]
theorem lined_ok (r : Reader) : lined (.ok r) = .ok r.onLine := rfl

@[simp]
theorem lined_fail (line col : Nat) (cause : ParseCause) : lined (fail line col cause) = fail line 0 cause := rfl

@[simp]
theorem onLine_onLine (r : Reader) : r.onLine.onLine = r.onLine := by
  simp [onLine]

/-! ## One line -/

theorem push_onLine (r : Reader) (head : Heading) (steps : List Step) {s s' : Step}
    (h : s'.relocate .onLine = s.relocate .onLine) :
    lined (.ok (r.onLine.inBlock (.workflow head (steps.map (·.relocate .onLine) ++ [s'])))) =
      lined (.ok (r.inBlock (.workflow head (steps ++ [s])))) := by
  simp [onLine, Block.onLine, h]

section

variable (r : Reader) (line : Nat) {raw raw' : Text} (h : raw'.trim = raw.trim)

include h

theorem topLine_onLine : lined (r.onLine.topLine line raw') = lined (r.topLine line raw) := by
  simp only [topLine, h]
  split
  · simp
  · split
    · simp [onLine]
    · simp [onLine]
    · split
      · simp [onLine, relocate, Import.relocate]
      · simp
    · simp only [onLine]
      cases openBlock line r.comments raw.trim _ _ with
      | error e => rfl
      | ok block => simp [onLine, Except.map]

theorem ruleLine_onLine (head : Heading) (commands : List Text) :
    lined (r.onLine.ruleLine head commands line raw') = lined (r.ruleLine head commands line raw) := by
  simp only [ruleLine, h]
  split
  · simp
  · split
    · simp [closeRule, exportedWith, onLine, relocate]
    · split
      · simp
      · simp [onLine]

theorem functionLine_onLine (head : Heading) (commands : List Text) :
    (r.onLine.functionLine head commands raw').onLine = (r.functionLine head commands raw).onLine := by
  simp only [functionLine, h]
  split
  · simp
  · split
    · simp [closeFunction, onLine, relocate]
    · simp [onLine]

theorem conditionalLine_onLine (head : Heading) (steps : List Step) (start : Nat) (rule : Reference)
    (commands : List ShellLine) :
    (r.onLine.conditionalLine head (steps.map (·.relocate .onLine)) start (rule.relocate .onLine)
        (commands.map (·.relocate .onLine)) line raw').onLine =
      (r.conditionalLine head steps start rule commands line raw).onLine := by
  have hrun : conditionalRun (commands.map (·.relocate .onLine)) raw.trim = conditionalRun commands raw.trim := by
    simp [conditionalRun]
  simp only [conditionalLine, h, hrun]
  split
  · simp
  · split
    · exact Except.ok.inj (push_onLine r head steps (by simp [Step.relocate]))
    · split
      · simp [onLine, Block.onLine, Reference.relocate]
      · simp [onLine, Block.onLine, ShellLine.relocate]

theorem conditionalEndLine_onLine (head : Heading) (steps : List Step) (rule workflow : Reference) :
    lined (r.onLine.conditionalEndLine head (steps.map (·.relocate .onLine)) (rule.relocate .onLine)
        (workflow.relocate .onLine) line raw') =
      lined (r.conditionalEndLine head steps rule workflow line raw) := by
  simp only [conditionalEndLine, h]
  split
  · simp
  · split
    · exact push_onLine r head steps (by simp [Step.relocate])
    · simp

end

theorem promptStep_onLine (r : Reader) (head : Heading) (steps : List Step) {loc loc' : Location} (text : Text)
    (line : Nat) (raw raw' : Text) {rest rest' : Text} (hloc : loc'.onLine = loc.onLine) (hrest : rest'.trim = rest.trim) :
    lined (r.onLine.promptStep head (steps.map (·.relocate .onLine)) loc' text line raw' rest') =
      lined (r.promptStep head steps loc text line raw rest) := by
  simp only [promptStep, hrest]
  split
  · exact push_onLine r head steps (by simp [Step.relocate, hloc])
  · simp

section

variable (r : Reader) (head : Heading) (steps : List Step) (line : Nat)

theorem openPrompt_self (raw : Text) :
    lined (r.onLine.openPrompt head (steps.map (·.relocate .onLine)) line raw) =
      lined (r.openPrompt head steps line raw) := by
  simp only [openPrompt]
  split
  · split
    · exact promptStep_onLine r head steps _ line raw raw rfl rfl
    · simp [onLine, Block.onLine]
  · simp

theorem openPrompt_onLine {raw raw' : Text} (h : raw'.trim = raw.trim) (hline : BodyLine.of raw.trim = .prompt)
    (hclosed : ∀ next, r.openPrompt head steps line raw = .ok next → next.promptStart = none) :
    lined (r.onLine.openPrompt head (steps.map (·.relocate .onLine)) line raw') =
      lined (r.openPrompt head steps line raw) := by
  have hline' : BodyLine.of raw'.trim = .prompt := by rw [h, hline]
  by_cases harg : ∃ rest, promptArgument raw.trim = '"' :: rest
  · obtain ⟨rest, harg⟩ := harg
    have harg' : promptArgument raw'.trim = '"' :: rest := by rw [h, harg]
    cases hcut : cutQuote [] rest with
    | none =>
      obtain ⟨col, text, hopen⟩ := openPrompt_open hline harg hcut
      have hnext := hclosed _ (hopen r head steps line)
      cases hnext
    | some cut =>
      obtain ⟨col, tail, htail, heq⟩ := openPrompt_closed hline harg hcut
      obtain ⟨col', tail', htail', heq'⟩ := openPrompt_closed hline' harg' hcut
      rw [heq, heq']
      refine promptStep_onLine r head steps cut.1 line raw raw' rfl ?_
      rw [Text.trim_append_blank htail, Text.trim_append_blank htail']
  · push Not at harg
    obtain ⟨col, heq⟩ := openPrompt_form hline harg
    obtain ⟨col', heq'⟩ := openPrompt_form hline' (by rwa [h])
    rw [heq, heq']
    simp

theorem workflowLine_onLine {raw raw' : Text} (h : raw'.trim = raw.trim)
    (hprompt : raw' = raw ∨ ∀ next, r.workflowLine head steps line raw = .ok next → next.promptStart = none) :
    lined (r.onLine.workflowLine head (steps.map (·.relocate .onLine)) line raw') =
      lined (r.workflowLine head steps line raw) := by
  cases hbody : BodyLine.of raw.trim with
  | blank => simp [workflowLine, h, hbody]
  | close =>
    simp only [workflowLine, h, hbody, lined_ok]
    simp [closeWorkflow, exportedWith, onLine, relocate, Workflow.relocate]
  | comment =>
    simp only [workflowLine, h, hbody]
    exact push_onLine r head steps rfl
  | shell =>
    simp only [workflowLine, h, hbody]
    exact push_onLine r head steps rfl
  | conditional rule =>
    simp only [workflowLine, h, hbody, lined_ok]
    simp [onLine, Block.onLine, Reference.relocate]
  | prompt =>
    have heq (r : Reader) (steps : List Step) (t : Text) (ht : BodyLine.of t.trim = .prompt) :
        r.workflowLine head steps line t = r.openPrompt head steps line t := by
      simp only [workflowLine, ht]
    rw [heq _ _ raw' (by rw [h, hbody]), heq _ _ raw hbody]
    rcases hprompt with rfl | hclosed
    · exact openPrompt_self r head steps line raw'
    · refine openPrompt_onLine r head steps line h hbody fun next hnext => hclosed next ?_
      rw [heq _ _ raw hbody, hnext]
  | ensure body =>
    simp only [workflowLine, h, hbody]
    split
    · exact push_onLine r head steps rfl
    · simp
  | run target =>
    simp only [workflowLine, h, hbody]
    split
    · exact push_onLine r head steps rfl
    · simp

end

theorem promptLine_self (r : Reader) (head : Heading) (steps : List Step) (loc : Location) (text : Text) (line : Nat)
    (raw : Text) :
    lined (r.onLine.promptLine head (steps.map (·.relocate .onLine)) loc.onLine text line raw) =
      lined (r.promptLine head steps loc text line raw) := by
  simp only [promptLine]
  split
  · exact promptStep_onLine r head steps _ line raw raw rfl rfl
  · simp [onLine, Block.onLine]

/-- One line. The blanks around it matter only where a prompt string goes over its end or its start. -/
theorem step_onLine (r : Reader) (line : Nat) (h : raw'.trim = raw.trim) (hprompt : raw' = raw ∨
      (r.promptStart = none ∧ ∀ next, r.step line raw = .ok next → next.promptStart = none)) :
    lined (r.onLine.step line raw') = lined (r.step line raw) := by
  have hblock : r.onLine.block = r.block.onLine := rfl
  simp only [step, hblock] at hprompt ⊢
  cases hb : r.block with
  | top => exact topLine_onLine r line h
  | rule head commands => exact ruleLine_onLine r line h head commands
  | function head commands => exact congrArg Except.ok (functionLine_onLine r h head commands)
  | workflow head steps =>
    rw [hb] at hprompt
    exact workflowLine_onLine r head steps line h (hprompt.imp_right fun hp => hp.2)
  | conditional head steps start rule commands =>
    exact congrArg Except.ok (conditionalLine_onLine r line h head steps start rule commands)
  | conditionalEnd head steps start rule workflow =>
    exact conditionalEndLine_onLine r line h head steps rule workflow
  | prompt head steps loc text =>
    rcases hprompt with rfl | ⟨hno, -⟩
    · exact promptLine_self r head steps loc text line raw'
    · rw [promptStart, hb] at hno
      cases hno

/-! ## Prompt strings over several lines -/

theorem step_promptStart (hr : r.promptStart = none) (h : r.step line raw = .ok next)
    (hn : next.promptStart = some n) : n = line := by
  refine ((keeps_step h).prompt n hn).resolve_left ?_
  rw [hr]
  simp

theorem of_promptStart (h : r.promptStart = some n) :
    ∃ head steps loc text, r.block = .prompt head steps loc text ∧ loc.line = n := by
  unfold promptStart at h
  split at h
  · rename_i head steps loc text hb
    exact ⟨head, steps, loc, text, hb, Option.some.inj h⟩
  · cases h

/-- Whether the reader stands inside a prompt string behind the first `n` of the lines; none if it has refused one
of them. -/
def promptAfter (r : Reader) (line : Nat) (ls : List Text) (n : Nat) : Option Bool :=
  (r.steps line (ls.take n)).toOption.map fun next => next.promptStart.isSome

/-- A prompt string that goes over several lines takes up the line with `n` lines before it: the string is open
where the line starts or where it ends, and it is closed in the end. -/
structure Spans (r : Reader) (line : Nat) (ls : List Text) (n : Nat) : Prop where
  across : r.promptAfter line ls n = some true ∨ r.promptAfter line ls (n + 1) = some true
  closed : ∃ k, n < k ∧ k ≤ ls.length ∧ r.promptAfter line ls k = some false

instance (r : Reader) (line : Nat) (ls : List Text) (n : Nat) : Decidable (r.Spans line ls n) :=
  decidable_of_iff ((r.promptAfter line ls n = some true ∨ r.promptAfter line ls (n + 1) = some true) ∧
      (List.range (ls.length + 1)).any fun k => n < k ∧ r.promptAfter line ls k = some false)
    (by
      simp only [any_eq_true, mem_range, decide_eq_true_eq]
      constructor
      · rintro ⟨hacross, k, hk, hn, hclosed⟩
        exact ⟨hacross, k, hn, Nat.le_of_lt_succ hk, hclosed⟩
      · rintro ⟨hacross, k, hn, hk, hclosed⟩
        exact ⟨hacross, k, Nat.lt_succ_of_le hk, hn, hclosed⟩)

theorem Spans.lt_length (h : r.Spans line ls n) : n < ls.length := by
  obtain ⟨k, hn, hk, -⟩ := h.closed
  exact Nat.lt_of_lt_of_le hn hk

theorem promptAfter_zero (r : Reader) (line : Nat) (ls : List Text) :
    r.promptAfter line ls 0 = some r.promptStart.isSome := rfl

theorem promptAfter_succ (h : r.step line raw = .ok next) (rest : List Text) (n : Nat) :
    r.promptAfter line (raw :: rest) (n + 1) = next.promptAfter (line + 1) rest n := by
  rw [promptAfter, take_succ_cons, steps_cons_ok h, promptAfter]

theorem step_of_promptAfter (h : r.promptAfter line (raw :: rest) 1 = some true) :
    ∃ next n, r.step line raw = .ok next ∧ next.promptStart = some n := by
  cases hstep : r.step line raw with
  | error e =>
    rw [promptAfter, take_succ_cons, steps, hstep] at h
    cases h
  | ok next =>
    rw [promptAfter_succ hstep, promptAfter_zero] at h
    obtain ⟨n, hn⟩ := Option.isSome_iff_exists.mp (Option.some.inj h)
    exact ⟨next, n, rfl, hn⟩

theorem Spans.succ (hstep : r.step line raw = .ok next) (h : next.Spans (line + 1) rest n) :
    r.Spans line (raw :: rest) (n + 1) where
  across := by
    rw [promptAfter_succ hstep, promptAfter_succ hstep]
    exact h.across
  closed := by
    obtain ⟨k, hn, hk, hclosed⟩ := h.closed
    refine ⟨k + 1, Nat.succ_lt_succ hn, Nat.succ_le_succ hk, ?_⟩
    rw [promptAfter_succ hstep]
    exact hclosed

/-- The result of reading to the end, without columns. -/
def ended (result : Except ParseError Reader) : Except ParseError Module :=
  ((result >>= finish).map (·.relocate .onLine)).mapError (·.relocate .onLine)

theorem ended_onLine (r : Reader) : ended (.ok r.onLine) = ended (.ok r) := by
  obtain ⟨m, comments, block⟩ := r
  cases block with
  | top => exact congrArg Except.ok m.relocate_onLine
  | _ => rfl

theorem steps_cons_error {e : ParseError} (h : r.step line raw = .error e) (rest : List Text) :
    r.steps line (raw :: rest) = .error e := by
  rw [steps, h]
  rfl

theorem promptLine_unclosed (line : Nat) (hr : r.promptStart = some n) (hr' : r'.promptStart = some n)
    (hraw : raw'.trim = raw.trim) :
    (∃ next next', r.step line raw = .ok next ∧ r'.step line raw' = .ok next' ∧
      next.promptStart = some n ∧ next'.promptStart = some n) ∨
    (∃ next, r.step line raw = .ok next ∧ next.promptStart = none) ∨
    ∃ e e', r.step line raw = .error e ∧ r'.step line raw' = .error e' ∧
      e'.relocate .onLine = e.relocate .onLine := by
  obtain ⟨head, steps, loc, text, hb, rfl⟩ := of_promptStart hr
  obtain ⟨head', steps', loc', text', hb', hloc⟩ := of_promptStart hr'
  have hcut := cutQuote_alike hraw
  simp only [step, hb, hb', promptLine]
  cases hq : cutQuote [] raw with
  | none =>
    rw [hq, Option.map_none, Option.map_eq_none_iff] at hcut
    rw [hcut]
    exact .inl ⟨_, _, rfl, rfl, rfl, congrArg some hloc⟩
  | some cut =>
    rw [hq, Option.map_some, Option.map_eq_some_iff] at hcut
    obtain ⟨cut', hq', htail⟩ := hcut
    rw [hq']
    simp only [promptStep, htail]
    split
    · exact .inr (.inl ⟨_, rfl, rfl⟩)
    · exact .inr (.inr ⟨_, _, rfl, rfl, rfl⟩)

/-- A prompt string that is not closed is refused for the same cause, whatever blanks stand around its lines. -/
theorem ended_unclosed {ls' : List Text} (hr : r.promptStart = some n) (hr' : r'.promptStart = some n)
    (htrim : ls'.map Text.trim = ls.map Text.trim)
    (hopen : ∀ k ≤ ls.length, r.promptAfter line ls k ≠ some false) :
    ended (r'.steps line ls') = ended (r.steps line ls) := by
  induction ls generalizing r r' line ls' with
  | nil =>
    obtain rfl : ls' = [] := map_eq_nil_iff.mp htrim
    obtain ⟨head, steps, loc, text, hb, rfl⟩ := of_promptStart hr
    obtain ⟨head', steps', loc', text', hb', hloc⟩ := of_promptStart hr'
    have hend (r : Reader) (loc : Location) (h : r.finish = .error ⟨loc, .openPrompt⟩) :
        ended (r.steps line []) = .error ⟨loc.onLine, .openPrompt⟩ := by
      rw [Reader.steps, ended]
      change (r.finish.map _).mapError _ = _
      rw [h]
      rfl
    rw [hend r loc (by rw [finish, hb]), hend r' loc' (by rw [finish, hb']), Location.onLine, Location.onLine, hloc]
  | cons raw rest ih =>
    obtain ⟨raw', rest', rfl, hraw, hrest⟩ := map_eq_cons_iff.mp htrim
    rcases promptLine_unclosed line hr hr' hraw with
      ⟨next, next', hstep, hstep', hnext, hnext'⟩ | ⟨next, hstep, hnext⟩ | ⟨e, e', hstep, hstep', he⟩
    · rw [steps_cons_ok hstep, steps_cons_ok hstep']
      refine ih hnext hnext' hrest fun k hk => ?_
      rw [← promptAfter_succ hstep]
      exact hopen (k + 1) (Nat.succ_le_succ hk)
    · refine absurd ?_ (hopen 1 (Nat.succ_le_succ (Nat.zero_le _)))
      rw [promptAfter_succ hstep, promptAfter_zero, hnext]
      rfl
    · rw [steps_cons_error hstep, steps_cons_error hstep']
      exact congrArg Except.error he

theorem ended_cons {rest' : List Text} (hstep : lined (r'.step line raw') = lined (r.step line raw))
    (hrest : ∀ next next' : Reader, r.step line raw = .ok next → next'.onLine = next.onLine →
      ended (next'.steps (line + 1) rest') = ended (next.steps (line + 1) rest)) :
    ended (r'.steps line (raw' :: rest')) = ended (r.steps line (raw :: rest)) := by
  cases hr : r.step line raw with
  | error e =>
    cases hr' : r'.step line raw' with
    | error e' =>
      rw [hr, hr'] at hstep
      rw [steps_cons_error hr, steps_cons_error hr']
      exact congrArg Except.error (Except.error.inj hstep)
    | ok next' =>
      rw [hr, hr'] at hstep
      cases hstep
  | ok next =>
    cases hr' : r'.step line raw' with
    | error e' =>
      rw [hr, hr'] at hstep
      cases hstep
    | ok next' =>
      rw [hr, hr'] at hstep
      rw [steps_cons_ok hr, steps_cons_ok hr']
      exact hrest next next' hr (Except.ok.inj hstep)

theorem step_alike (hr : r'.onLine = r.onLine) (line : Nat) (h : raw'.trim = raw.trim) (hprompt : raw' = raw ∨
      (r.promptStart = none ∧ ∀ next, r.step line raw = .ok next → next.promptStart = none)) :
    lined (r'.step line raw') = lined (r.step line raw) := by
  calc lined (r'.step line raw')
      = lined (r'.onLine.step line raw') := (step_onLine r' line rfl (.inl rfl)).symm
    _ = lined (r.onLine.step line raw') := by rw [hr]
    _ = lined (r.step line raw) := step_onLine r line h hprompt

theorem promptStart_congr (hr : r'.onLine = r.onLine) : r'.promptStart = r.promptStart := by
  rw [← promptStart_onLine r', hr, promptStart_onLine]

theorem step_opens (hr : r'.onLine = r.onLine) (h : raw'.trim = raw.trim) (hout : r.promptStart = none)
    (hstep : r.step line raw = .ok next) (hn : next.promptStart = some n) :
    ∃ next', r'.step line raw' = .ok next' ∧ next'.promptStart = some n := by
  have hout' : r'.promptStart = none := by rw [promptStart_congr hr, hout]
  by_contra hno
  push Not at hno
  -- the other line opens no prompt string, so that the two lines lead to the same place
  have hclosed : ∀ next', r'.step line raw' = .ok next' → next'.promptStart = none := by
    intro next' hstep'
    cases hk : next'.promptStart with
    | none => rfl
    | some k =>
      refine absurd hk (step_promptStart hout' hstep' hk ▸ step_promptStart hout hstep hn ▸ hno next' hstep')
  have heq := step_alike hr.symm line h.symm (.inr ⟨hout', hclosed⟩)
  rw [hstep] at heq
  cases hstep' : r'.step line raw' with
  | error e =>
    rw [hstep'] at heq
    cases heq
  | ok next' =>
    rw [hstep'] at heq
    have hsame := promptStart_congr (Except.ok.inj heq)
    rw [hclosed next' hstep', hn] at hsame
    cases hsame

/-- All lines. Those that a prompt string over several lines takes up are the same, and the others are so but for
the blanks around them. -/
theorem ended_alike {ls' : List Text} (hr : r'.onLine = r.onLine) (htrim : ls'.map Text.trim = ls.map Text.trim)
    (hspan : ∀ n, r.Spans line ls n → ls'[n]? = ls[n]?) :
    ended (r'.steps line ls') = ended (r.steps line ls) := by
  induction ls generalizing r r' line ls' with
  | nil =>
    obtain rfl : ls' = [] := map_eq_nil_iff.mp htrim
    rw [Reader.steps, Reader.steps, ← ended_onLine r', hr, ended_onLine]
  | cons raw rest ih =>
    obtain ⟨raw', rest', rfl, hraw, hrest⟩ := map_eq_cons_iff.mp htrim
    have hgo (hstep : lined (r'.step line raw') = lined (r.step line raw)) :
        ended (r'.steps line (raw' :: rest')) = ended (r.steps line (raw :: rest)) :=
      ended_cons hstep fun next next' hnext hline =>
        ih hline hrest fun n hn => hspan (n + 1) (hn.succ hnext)
    by_cases hacross : r.promptAfter line (raw :: rest) 0 = some true ∨ r.promptAfter line (raw :: rest) 1 = some true
    · by_cases hclosed : ∃ k, 0 < k ∧ k ≤ (raw :: rest).length ∧ r.promptAfter line (raw :: rest) k = some false
      · have hsame : raw' = raw := Option.some.inj (hspan 0 ⟨hacross, hclosed⟩)
        exact hgo (step_alike hr line hraw (.inl hsame))
      · push Not at hclosed
        cases hstart : r.promptStart with
        | some n =>
          refine ended_unclosed hstart ((promptStart_congr hr).trans hstart) htrim fun k hk => ?_
          cases k with
          | zero => simp [promptAfter_zero, hstart]
          | succ k => exact hclosed (k + 1) (Nat.succ_pos k) hk
        | none =>
          rw [promptAfter_zero, hstart] at hacross
          obtain ⟨next, n, hstep, hn⟩ := step_of_promptAfter (hacross.resolve_left (by simp))
          obtain ⟨next', hstep', hn'⟩ := step_opens hr hraw hstart hstep hn
          rw [steps_cons_ok hstep, steps_cons_ok hstep']
          refine ended_unclosed hn hn' hrest fun k hk => ?_
          rw [← promptAfter_succ hstep]
          exact hclosed (k + 1) (Nat.succ_pos k) (Nat.succ_le_succ hk)
    · obtain ⟨hout, hnext⟩ := not_or.mp hacross
      have hstart : r.promptStart = none := by simpa [promptAfter_zero] using hout
      refine hgo (step_alike hr line hraw (.inr ⟨hstart, fun next hstep => ?_⟩))
      rw [promptAfter_succ hstep, promptAfter_zero] at hnext
      simpa using hnext

end Reader

/-- Two sources that differ only in blanks around lines outside of prompt strings over several lines give
the same module but for the columns, or are refused on the same line for the same cause. -/
theorem Module.parse_reindented (file : Path) {a b : Text} (htrim : b.lines.map Text.trim = a.lines.map Text.trim)
    (hspan : ∀ n, (Reader.start file).Spans 1 a.lines n → b.lines[n]? = a.lines[n]?) :
    (∀ m, parse file a = .ok m →
      ∃ m', parse file b = .ok m' ∧ m'.relocate .onLine = m.relocate .onLine) ∧
    (∀ e, parse file a = .error e →
      ∃ e', parse file b = .error e' ∧ e'.loc.line = e.loc.line ∧ e'.cause = e.cause) := by
  have h : ((parse file b).map (·.relocate .onLine)).mapError (·.relocate .onLine) =
      ((parse file a).map (·.relocate .onLine)).mapError (·.relocate .onLine) :=
    Reader.ended_alike rfl htrim hspan
  constructor
  · intro m hm
    rw [hm] at h
    cases hb : parse file b with
    | ok m' =>
      rw [hb] at h
      exact ⟨m', rfl, Except.ok.inj h⟩
    | error e' =>
      rw [hb] at h
      cases h
  · intro e he
    rw [he] at h
    cases hb : parse file b with
    | ok m' =>
      rw [hb] at h
      cases h
    | error e' =>
      rw [hb] at h
      have hrelocate : e'.relocate .onLine = e.relocate .onLine := Except.error.inj h
      have hline : (e'.relocate .onLine).loc.line = (e.relocate .onLine).loc.line := by rw [hrelocate]
      have hcause : (e'.relocate .onLine).cause = (e.relocate .onLine).cause := by rw [hrelocate]
      exact ⟨e', rfl, hline, hcause⟩

/-- A prompt over two lines, with other blanks around the lines that are not its own; and a prompt that is never
closed, with other blanks everywhere. -/
theorem Module.parse_reindented_prompt :
    (∃ m', parse "f" "\tworkflow w \x7b\n run a \n  prompt \"x \n  y\"\n\x7d" = .ok m' ∧
      m'.relocate .onLine =
        ⟨"f", [], [], [], [], [⟨"w", [], [.run ⟨"a", ⟨2, 0⟩⟩, .prompt "x \n  y" ⟨3, 0⟩], ⟨1, 0⟩⟩]⟩) ∧
    (∃ e', parse "f" "workflow w \x7b\nprompt \"x  \n\ty\n" = .error e' ∧
      e'.loc.line = 2 ∧ e'.cause = .openPrompt) := by
  have hspan (a b : Text) (h : ∀ n < a.lines.length, (Reader.start "f").Spans 1 a.lines n → b.lines[n]? = a.lines[n]?) :
      ∀ n, (Reader.start "f").Spans 1 a.lines n → b.lines[n]? = a.lines[n]? :=
    fun n hn => h n hn.lt_length hn
  refine ⟨?_, ?_⟩
  · refine (parse_reindented "f" (a := "workflow w \x7b\n  run a\n  prompt \"x \n  y\"\n\x7d\n") ?_
      (hspan _ _ ?_)).1 ⟨"f", [], [], [], [], [⟨"w", [], [.run ⟨"a", ⟨2, 3⟩⟩, .prompt "x \n  y" ⟨3, 3⟩], ⟨1, 1⟩⟩]⟩ ?_
    · decide
    · decide
    · decide
  · refine (parse_reindented "f" (a := "workflow w \x7b\n  prompt \"x\n y\n") ?_ (hspan _ _ ?_)).2
      ⟨⟨2, 3⟩, .openPrompt⟩ ?_
    · decide
    · decide
    · decide

end Runbook
