import Runbook.Proofs.Quoting

/-!
# Reading one text behind another

Between two declarations the reader keeps nothing but the module so far, and no block looks past its end. A
text behind another one therefore gives the same declarations or the same error, only further down.
-/

namespace Runbook
open Runbook.Module

/-! ## Moving places -/

def Reference.relocate (f : Location → Location) (r : Reference) : Reference := { r with loc := f r.loc }

def Import.relocate (f : Location → Location) (i : Import) : Import := { i with loc := f i.loc }

def Routine.relocate (f : Location → Location) (r : Routine) : Routine := { r with loc := f r.loc }

def ShellLine.relocate (f : Location → Location) (s : ShellLine) : ShellLine := { s with loc := f s.loc }

def Step.relocate (f : Location → Location) : Step → Step
  | .ensure rule args => .ensure (rule.relocate f) args
  | .run workflow => .run (workflow.relocate f)
  | .prompt text loc => .prompt text (f loc)
  | .shell command loc => .shell command (f loc)
  | .unlessRun rule workflow => .unlessRun (rule.relocate f) (workflow.relocate f)
  | .unlessShell rule commands => .unlessShell (rule.relocate f) (commands.map (·.relocate f))

def Workflow.relocate (f : Location → Location) (w : Workflow) : Workflow :=
  { w with steps := w.steps.map (·.relocate f), loc := f w.loc }

def Module.relocate (f : Location → Location) (m : Module) : Module :=
  { m with
    imports := m.imports.map (·.relocate f)
    rules := m.rules.map (·.relocate f)
    functions := m.functions.map (·.relocate f)
    workflows := m.workflows.map (·.relocate f) }

def ParseError.relocate (f : Location → Location) (e : ParseError) : ParseError := { e with loc := f e.loc }

/-- The place `n` lines further down. -/
def Location.below (n : Nat) (l : Location) : Location := { l with line := l.line + n }

/-- The declarations of a module and then those of another. -/
def Module.append (m m' : Module) : Module :=
  { m with
    imports := m.imports ++ m'.imports
    exported := m.exported ++ m'.exported
    rules := m.rules ++ m'.rules
    functions := m.functions ++ m'.functions
    workflows := m.workflows ++ m'.workflows }

/-! ## A reader further down -/

def Heading.below (n : Nat) (h : Heading) : Heading := { h with line := h.line + n }

def Block.below (n : Nat) : Block → Block
  | .top => .top
  | .rule head commands => .rule (head.below n) commands
  | .function head commands => .function (head.below n) commands
  | .workflow head steps => .workflow (head.below n) (steps.map (·.relocate (.below n)))
  | .conditional head steps line check commands =>
    .conditional (head.below n) (steps.map (·.relocate (.below n))) (line + n) (check.relocate (.below n))
      (commands.map (·.relocate (.below n)))
  | .conditionalEnd head steps line check call =>
    .conditionalEnd (head.below n) (steps.map (·.relocate (.below n))) (line + n)
      (check.relocate (.below n)) (call.relocate (.below n))
  | .prompt head steps loc text =>
    .prompt (head.below n) (steps.map (·.relocate (.below n))) (loc.below n) text

namespace Reader

/-- The reader as it is when what it has read stands behind the `n` lines of a module. -/
def behind (m : Module) (n : Nat) (r : Reader) : Reader :=
  ⟨m.append (r.module.relocate (.below n)), r.comments, r.block.below n⟩

/-- The result of a step, behind the lines of a module. -/
def moved (m : Module) (n : Nat) (result : Except ParseError Reader) : Except ParseError Reader :=
  (result.map (behind m n)).mapError (·.relocate (.below n))

@[simp] theorem moved_ok (m : Module) (n : Nat) (r : Reader) : moved m n (.ok r) = .ok (r.behind m n) := rfl

@[simp] theorem moved_fail (m : Module) (n line col : Nat) (cause : ParseCause) :
    moved m n (fail line col cause) = fail (line + n) col cause := rfl

variable (m : Module) (n : Nat) (r : Reader) (line : Nat) (raw : Text)

@[simp] theorem behind_comments : (r.behind m n).comments = r.comments := rfl

@[simp] theorem behind_block : (r.behind m n).block = r.block.below n := rfl

theorem openBlock_below (comments : List Text) (text : Text) (exported : Bool) (decl : Text) :
    openBlock (line + n) comments text exported decl =
      ((openBlock line comments text exported decl).map (Block.below n)).mapError
        (·.relocate (.below n)) := by
  simp only [openBlock]
  split
  · split <;> rfl
  · split
    · split
      · split <;> rfl
      · rfl
    · split
      · split <;> rfl
      · rfl

theorem topLine_behind (htop : r.block = .top) (hpos : 0 < line) (hn : 0 < n)
    (hfirst : line = 1 → raw.trim.startsWith "#!" = false) :
    (r.behind m n).topLine (line + n) raw = moved m n (r.topLine line raw) := by
  have hfirst' : ¬ (line = 1 ∧ raw.trim.startsWith "#!" = true) := by
    rintro ⟨h₁, h₂⟩
    rw [hfirst h₁] at h₂
    cases h₂
  have hlater : ¬ (line + n = 1 ∧ raw.trim.startsWith "#!" = true) := by omega
  simp only [topLine, hfirst', hlater, ↓reduceIte]
  split
  · simp [behind]
  · simp [behind]
  · split
    · simp [behind, htop, append, relocate, Block.below, Import.relocate, Location.below]
    · simp
  · rw [openBlock_below, behind_comments]
    cases openBlock line r.comments raw.trim _ _ with
    | error e => rfl
    | ok block => rfl

theorem exportedWith_behind (head : Heading) :
    (r.behind m n).exportedWith (head.below n) = m.exported ++ r.exportedWith head := by
  by_cases he : head.exported = true <;>
    simp [exportedWith, behind, append, relocate, Heading.below, he]

theorem ruleLine_behind (head : Heading) (commands : List Text) :
    (r.behind m n).ruleLine (head.below n) commands (line + n) raw =
      moved m n (r.ruleLine head commands line raw) := by
  simp only [ruleLine]
  split
  · simp
  · split
    · simp only [moved_ok, closeRule, exportedWith_behind]
      simp [behind, append, relocate, Block.below]
      rfl
    · split
      · simp
      · simp [behind, Block.below]

theorem functionLine_behind (head : Heading) (commands : List Text) :
    (r.behind m n).functionLine (head.below n) commands raw =
      (r.functionLine head commands raw).behind m n := by
  simp only [functionLine]
  split
  · rfl
  · split
    · simp [closeFunction, behind, append, relocate, Block.below]
      rfl
    · simp [behind, Block.below]

theorem promptStep_behind (head : Heading) (steps : List Step) (loc : Location) (text rest : Text) :
    (r.behind m n).promptStep (head.below n) (steps.map (·.relocate (.below n))) (loc.below n) text (line + n)
      raw rest = moved m n (r.promptStep head steps loc text line raw rest) := by
  simp only [promptStep]
  split
  · simp [behind, Block.below, Step.relocate]
  · simp

theorem openPrompt_behind (head : Heading) (steps : List Step) :
    (r.behind m n).openPrompt (head.below n) (steps.map (·.relocate (.below n))) (line + n) raw =
      moved m n (r.openPrompt head steps line raw) := by
  simp only [openPrompt]
  split
  · split
    · exact promptStep_behind m n r line raw head steps ⟨line, _⟩ _ _
    · rfl
  · rfl

theorem promptLine_behind (head : Heading) (steps : List Step) (loc : Location) (text : Text) :
    (r.behind m n).promptLine (head.below n) (steps.map (·.relocate (.below n))) (loc.below n) text (line + n)
      raw = moved m n (r.promptLine head steps loc text line raw) := by
  simp only [promptLine]
  split
  · exact promptStep_behind ..
  · rfl

theorem workflowLine_behind (head : Heading) (steps : List Step) :
    (r.behind m n).workflowLine (head.below n) (steps.map (·.relocate (.below n))) (line + n) raw =
      moved m n (r.workflowLine head steps line raw) := by
  have hpush (s s' : Step) (hs : s' = s.relocate (.below n)) :
      { r.behind m n with block := .workflow (head.below n) (steps.map (·.relocate (.below n)) ++ [s']) } =
        ({ r with block := .workflow head (steps ++ [s]) } : Reader).behind m n := by
    simp [behind, Block.below, hs]
  simp only [workflowLine]
  split
  · simp
  · simp only [moved_ok, closeWorkflow, exportedWith_behind]
    simp [behind, append, relocate, Block.below]
    rfl
  · exact congrArg Except.ok (hpush _ _ rfl)
  · exact congrArg Except.ok (hpush _ _ rfl)
  · rfl
  · exact openPrompt_behind ..
  · split
    · exact congrArg Except.ok (hpush _ _ rfl)
    · rfl
  · split
    · exact congrArg Except.ok (hpush _ _ rfl)
    · rfl

theorem conditionalLine_behind (head : Heading) (steps : List Step) (start : Nat) (rule : Reference)
    (commands : List ShellLine) :
    (r.behind m n).conditionalLine (head.below n) (steps.map (·.relocate (.below n))) (start + n)
      (rule.relocate (.below n)) (commands.map (·.relocate (.below n))) (line + n) raw =
      (r.conditionalLine head steps start rule commands line raw).behind m n := by
  have hrun : conditionalRun (commands.map (·.relocate (.below n))) raw.trim =
      conditionalRun commands raw.trim := by simp [conditionalRun]
  simp only [conditionalLine, hrun]
  split
  · rfl
  · split
    · simp [behind, Block.below, Step.relocate]
    · split
      · rfl
      · simp [behind, Block.below, ShellLine.relocate, Location.below]

theorem conditionalEndLine_behind (head : Heading) (steps : List Step) (rule workflow : Reference) :
    (r.behind m n).conditionalEndLine (head.below n) (steps.map (·.relocate (.below n)))
      (rule.relocate (.below n)) (workflow.relocate (.below n)) (line + n) raw =
      moved m n (r.conditionalEndLine head steps rule workflow line raw) := by
  simp only [conditionalEndLine]
  split
  · rfl
  · split
    · simp [behind, Block.below, Step.relocate]
    · rfl

/-- One line is read behind other lines as it is read alone, but for the places. -/
theorem step_behind (hpos : 0 < line) (hn : 0 < n) (hfirst : line = 1 → raw.trim.startsWith "#!" = false) :
    (r.behind m n).step (line + n) raw = moved m n (r.step line raw) := by
  simp only [step, behind_block]
  cases hb : r.block with
  | top => exact topLine_behind m n r line raw hb hpos hn hfirst
  | rule head commands => exact ruleLine_behind m n r line raw head commands
  | function head commands => exact congrArg Except.ok (functionLine_behind m n r raw head commands)
  | workflow head steps => exact workflowLine_behind m n r line raw head steps
  | conditional head steps start rule commands =>
    exact congrArg Except.ok (conditionalLine_behind m n r line raw head steps start rule commands)
  | conditionalEnd head steps start rule workflow =>
    exact conditionalEndLine_behind m n r line raw head steps rule workflow
  | prompt head steps loc text => exact promptLine_behind m n r line raw head steps loc text

/-- All lines are read behind other lines as they are read alone, if the first one names no interpreter. -/
theorem steps_behind {raws : List Text} (hpos : 0 < line) (hn : 0 < n)
    (hfirst : line = 1 → ∀ raw ∈ raws.head?, raw.trim.startsWith "#!" = false) :
    (r.behind m n).steps (line + n) raws = moved m n (r.steps line raws) := by
  induction raws generalizing r line with
  | nil => rfl
  | cons raw rest ih =>
    simp only [steps, step_behind m n r line raw hpos hn fun h => hfirst h raw rfl]
    cases r.step line raw with
    | error e => rfl
    | ok next =>
      have hline : line + n + 1 = line + 1 + n := by omega
      rw [hline]
      exact ih next (line + 1) (by omega) fun h => by omega

theorem finish_behind :
    (r.behind m n).finish =
      (r.finish.map fun m' => m.append (m'.relocate (.below n))).mapError (·.relocate (.below n)) := by
  simp only [finish, behind_block]
  cases r.block <;> rfl

/-! ## Lines one after the other -/

theorem comments_of_blank {r r' : Reader} {line : Nat} {raw : Text} (hraw : raw.trim = [])
    (h : r.step line raw = .ok r') (htop : r'.block = .top) : r'.comments = [] := by
  -- inside a block a blank line changes nothing, and the block stays open
  have hsame : r.block ≠ .top → r' = r → r'.comments = [] := fun hb he => absurd (he ▸ htop) hb
  simp only [step] at h
  cases hb : r.block with
  | top =>
    have hi : ¬ (line = 1 ∧ Text.startsWith [] "#!" = true) := by rintro ⟨-, h⟩; cases h
    simp only [hb, topLine, hraw, hi, ↓reduceIte, TopLine.of] at h
    cases h
    rfl
  | rule head commands =>
    simp only [hb, ruleLine, hraw, ↓reduceIte] at h
    exact hsame (by simp [hb]) (Except.ok.inj h).symm
  | function head commands =>
    simp only [hb, functionLine, hraw, ↓reduceIte] at h
    exact hsame (by simp [hb]) (Except.ok.inj h).symm
  | workflow head steps =>
    simp only [hb, workflowLine, hraw, BodyLine.of, ↓reduceIte] at h
    exact hsame (by simp [hb]) (Except.ok.inj h).symm
  | conditional head steps start rule commands =>
    simp only [hb, conditionalLine, hraw, true_or, ↓reduceIte] at h
    exact hsame (by simp [hb]) (Except.ok.inj h).symm
  | conditionalEnd head steps start rule workflow =>
    simp only [hb, conditionalEndLine, hraw, true_or, ↓reduceIte] at h
    exact hsame (by simp [hb]) (Except.ok.inj h).symm
  | prompt head steps loc text =>
    have hopen : cutQuote [] raw = none := by
      cases hc : cutQuote [] raw with
      | none => rfl
      | some cut =>
        have hq := Text.isBlank_of_trim_eq_nil hraw '"' (eq_of_cutQuote hc ▸ by simp)
        exact absurd hq (by decide)
    simp only [hb, promptLine, hopen] at h
    cases h
    cases htop

theorem isUnterminated_of_finish {r : Reader} {e : ParseError} (h : r.finish = .error e) :
    e.cause.isUnterminated = true := by
  simp only [finish] at h
  cases hb : r.block <;> simp only [hb] at h <;> cases h <;> rfl

theorem behind_start (file : Path) : (start file).behind m n = ⟨m, [], .top⟩ := by
  simp [behind, start, append, relocate, empty, Block.below]

theorem steps_of_blank {r : Reader} {line : Nat} {raws : List Text} {last : Text} {m : Module}
    (hlast : raws.getLast? = some last) (hblank : last.trim = [])
    (h : r.steps line raws >>= finish = .ok m) : r.steps line raws = .ok ⟨m, [], .top⟩ := by
  obtain ⟨done, hdone, hfinish⟩ := of_bind_ok h
  obtain ⟨htop, rfl⟩ := of_finish_ok hfinish
  obtain ⟨init, rfl⟩ := List.getLast?_eq_some_iff.mp hlast
  have hcomments : done.comments = [] := by
    have hrun := hdone
    rw [steps_append] at hrun
    obtain ⟨before, -, hrun⟩ := of_bind_ok hrun
    obtain ⟨after, hstep, hnil⟩ := of_bind_ok hrun
    cases hnil
    exact comments_of_blank hblank hstep htop
  rw [hdone, ← hcomments, ← htop]

end Reader

/-- A text that ends in a blank line can be followed by any text that names no interpreter: the second is
read as it is read alone, its places further down by the lines of the first. And an error inside the
first text is that of the whole, whatever follows. -/
theorem Module.parse_append (file : Path) {a : Text} (ha : a.getLast? = some '\n') :
    (∀ m last b, parse file a = .ok m → a.lines.getLast? = some last → last.trim = [] →
      (∀ first ∈ b.lines.head?, first.trim.startsWith "#!" = false) →
      parse file (a ++ b) =
        ((parse file b).map fun m' => m.append (m'.relocate (.below a.lines.length))).mapError
          (·.relocate (.below a.lines.length))) ∧
    (∀ e b, parse file a = .error e → e.cause.isUnterminated = false →
      parse file (a ++ b) = .error e) := by
  have hsteps (b : Text) : (Reader.start file).steps 1 (a ++ b).lines =
      (Reader.start file).steps 1 a.lines >>= fun r => r.steps (1 + a.lines.length) b.lines := by
    rw [Text.lines_append ha, Reader.steps_append]
  constructor
  · intro m last b hm hlast hblank hfirst
    have hlines : 0 < a.lines.length := List.length_pos_of_mem (List.mem_of_getLast? hlast)
    have hdone := Reader.steps_of_blank hlast hblank hm
    rw [← Reader.behind_start m a.lines.length file] at hdone
    have hrest := Reader.steps_behind m a.lines.length (Reader.start file) 1 Nat.one_pos hlines
      fun _ => hfirst
    rw [parse, parse, hsteps, hdone]
    change (Reader.steps _ _ _ >>= _) = _
    rw [hrest]
    cases (Reader.start file).steps 1 b.lines with
    | error e => rfl
    | ok r => exact Reader.finish_behind m a.lines.length r
  · intro e b he hcause
    rw [parse, hsteps]
    rcases of_bind_error he with hs | ⟨r, -, hf⟩
    · rw [hs]
      rfl
    · rw [Reader.isUnterminated_of_finish hf] at hcause
      cases hcause

/-- A rule and a blank line, then a workflow, or a statement that means nothing. -/
theorem Module.parse_append_rule :
    parse "f" ("rule r \x7b\n\x7d\n \n" ++ "workflow w \x7b\n  ensure r\n\x7d\n") =
      .ok ⟨"f", [], [], [⟨"r", [], [], ⟨1, 1⟩⟩], [],
        [⟨"w", [], [.ensure ⟨"r", ⟨5, 3⟩⟩ none], ⟨4, 1⟩⟩]⟩ ∧
    parse "f" ("rule r \x7b\n\x7d\n \n" ++ "# c\necho") = .error ⟨⟨5, 1⟩, .unknownStatement "echo"⟩ ∧
    parse "f" ("echo\n" ++ "\x7d") = .error ⟨⟨1, 1⟩, .unknownStatement "echo"⟩ := by
  have hrule := (parse_append "f" (a := "rule r \x7b\n\x7d\n \n") (by decide)).1
    ⟨"f", [], [], [⟨"r", [], [], ⟨1, 1⟩⟩], [], []⟩ " "
  have hecho := (parse_append "f" (a := "echo\n") (by decide)).2
  refine ⟨?_, ?_, ?_⟩
  · exact (hrule "workflow w \x7b\n  ensure r\n\x7d\n" (by decide) (by decide) (by decide)
      (by decide)).trans (by decide)
  · exact (hrule "# c\necho" (by decide) (by decide) (by decide) (by decide)).trans (by decide)
  · exact hecho _ "\x7d" (by decide) (by decide)

end Runbook
