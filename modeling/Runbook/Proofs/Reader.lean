import Runbook.Proofs.Except
import Runbook.Source.Reader

/-!
# Reading a source text

What reading line by line leaves alone: a module keeps the name of the file it is read from, and a prompt
string that goes on keeps the line on which it starts.
-/

namespace Runbook

namespace Reader

theorem steps_cons_ok {r r' : Reader} {line : Nat} {raw : Text} (h : r.step line raw = .ok r') (rest : List Text) :
    r.steps line (raw :: rest) = r'.steps (line + 1) rest := by
  rw [steps, h]
  rfl

theorem steps_append (r : Reader) (line : Nat) (raws rest : List Text) :
    r.steps line (raws ++ rest) = r.steps line raws >>= fun r => r.steps (line + raws.length) rest := by
  induction raws generalizing r line with
  | nil => rfl
  | cons raw raws ih =>
    simp only [List.cons_append, steps, List.length_cons]
    cases r.step line raw with
    | error e => rfl
    | ok next =>
      have hlength : line + (raws.length + 1) = line + 1 + raws.length := by omega
      rw [hlength]
      exact ih next (line + 1)

theorem of_finish_ok {r : Reader} {m : Module} (h : r.finish = .ok m) : r.block = .top ∧ m = r.module := by
  simp only [finish] at h
  cases hb : r.block <;> simp only [hb] at h <;> cases h
  exact ⟨rfl, rfl⟩

/-- The line on which a prompt string starts that goes on with the next line. -/
def promptStart (r : Reader) : Option Nat :=
  match r.block with
  | .prompt _ _ loc _ => some loc.line
  | _ => none

/-- What stays when a line is read: the file, and the start of a prompt string unless it starts here. -/
structure Keeps (r : Reader) (line : Nat) (r' : Reader) : Prop where
  file : r'.module.file = r.module.file
  prompt : ∀ n, r'.promptStart = some n → r.promptStart = some n ∨ n = line

variable {r r' : Reader} {head : Heading} {steps : List Step} {loc : Location} {line : Nat} {text raw : Text}

theorem Keeps.refl (r : Reader) (line : Nat) : r.Keeps line r := ⟨rfl, fun _ hn => .inl hn⟩

theorem Keeps.closed (hfile : r'.module.file = r.module.file) (h : r'.promptStart = none) : r.Keeps line r' := by
  refine ⟨hfile, fun n hn => ?_⟩
  rw [h] at hn
  cases hn

theorem keeps_openBlock {exported : Bool} {decl : Text} {b : Block}
    (h : openBlock line r.comments text exported decl = .ok b) :
    r.Keeps line { r with comments := [], block := b } := by
  simp only [openBlock, fail] at h
  repeat' split at h
  all_goals cases h
  all_goals exact .closed rfl rfl

theorem keeps_topLine (h : r.topLine line raw = .ok r') : r.Keeps line r' := by
  simp only [topLine] at h
  split at h
  · cases h
    exact .refl _ _
  · split at h
    · cases h
      exact ⟨rfl, fun _ hn => .inl hn⟩
    · cases h
      exact ⟨rfl, fun _ hn => .inl hn⟩
    · split at h
      · cases h
        exact ⟨rfl, fun _ hn => .inl hn⟩
      · cases h
    · obtain ⟨block, hblock, rfl⟩ := of_map_ok h
      exact keeps_openBlock hblock

theorem keeps_ruleLine {commands : List Text} (h : r.ruleLine head commands line raw = .ok r') :
    r.Keeps line r' := by
  simp only [ruleLine] at h
  split at h
  · cases h
    exact .refl _ _
  · split at h
    · cases h
      exact .closed rfl rfl
    · split at h
      · cases h
      · cases h
        exact .closed rfl rfl

theorem keeps_functionLine (r : Reader) (head : Heading) (commands : List Text) (line : Nat) (raw : Text) :
    r.Keeps line (r.functionLine head commands raw) := by
  simp only [functionLine]
  split
  · exact .refl _ _
  · split <;> exact .closed rfl rfl

theorem keeps_promptStep {rest : Text} (h : r.promptStep head steps loc text line raw rest = .ok r') :
    r.Keeps line r' := by
  simp only [promptStep] at h
  split at h
  · cases h
    exact .closed rfl rfl
  · cases h

theorem keeps_openPrompt (h : r.openPrompt head steps line raw = .ok r') : r.Keeps line r' := by
  simp only [openPrompt] at h
  split at h
  · split at h
    · exact keeps_promptStep h
    · cases h
      exact ⟨rfl, fun _ hn => .inr (Option.some.inj hn).symm⟩
  · cases h

theorem keeps_promptLine (hr : r.promptStart = some loc.line)
    (h : r.promptLine head steps loc text line raw = .ok r') : r.Keeps line r' := by
  simp only [promptLine] at h
  split at h
  · exact keeps_promptStep h
  · cases h
    exact ⟨rfl, fun _ hn => .inl (hr.trans hn)⟩

theorem keeps_workflowLine (h : r.workflowLine head steps line raw = .ok r') : r.Keeps line r' := by
  simp only [workflowLine] at h
  split at h
  · cases h; exact .refl _ _
  · cases h; exact .closed rfl rfl
  · cases h; exact .closed rfl rfl
  · cases h; exact .closed rfl rfl
  · cases h; exact .closed rfl rfl
  · exact keeps_openPrompt h
  · split at h
    · cases h; exact .closed rfl rfl
    · cases h
  · split at h
    · cases h; exact .closed rfl rfl
    · cases h

theorem keeps_conditionalLine (r : Reader) (head : Heading) (steps : List Step) (start : Nat)
    (rule : Reference) (commands : List ShellLine) (line : Nat) (raw : Text) :
    r.Keeps line (r.conditionalLine head steps start rule commands line raw) := by
  simp only [conditionalLine]
  split
  · exact .refl _ _
  · split
    · exact .closed rfl rfl
    · split <;> exact .closed rfl rfl

theorem keeps_conditionalEndLine {rule workflow : Reference}
    (h : r.conditionalEndLine head steps rule workflow line raw = .ok r') : r.Keeps line r' := by
  simp only [conditionalEndLine] at h
  split at h
  · cases h
    exact .refl _ _
  · split at h
    · cases h
      exact .closed rfl rfl
    · cases h

theorem keeps_step (h : r.step line raw = .ok r') : r.Keeps line r' := by
  simp only [step] at h
  split at h
  · exact keeps_topLine h
  · exact keeps_ruleLine h
  · cases h
    exact keeps_functionLine ..
  · exact keeps_workflowLine h
  · cases h
    exact keeps_conditionalLine ..
  · exact keeps_conditionalEndLine h
  · rename_i hb
    exact keeps_promptLine (by rw [promptStart, hb]) h

theorem steps_file {raws : List Text} (h : r.steps line raws = .ok r') :
    r'.module.file = r.module.file := by
  induction raws generalizing r line with
  | nil =>
    cases h
    rfl
  | cons raw rest ih =>
    obtain ⟨next, hn, h⟩ := of_bind_ok h
    rw [ih h, (keeps_step hn).file]

end Reader

theorem Module.file_of_parse {file : Path} {source : Text} {m : Module}
    (h : Module.parse file source = .ok m) : m.file = file := by
  obtain ⟨r, hr, hf⟩ := of_bind_ok h
  obtain ⟨-, rfl⟩ := Reader.of_finish_ok hf
  rw [Reader.steps_file hr]
  rfl

end Runbook
