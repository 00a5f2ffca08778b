import Runbook.Source.Reference
import Runbook.Text.Lines

/-!
Prompt texts. A prompt is literal text with parameter expansions that are left to the shell. Command
substitutions are refused, so that the here-document a prompt becomes never runs a command.
-/
namespace Runbook

inductive Segment where
  | literal (text : Text)
  | expansion (text : Text)
deriving DecidableEq, Repr

inductive PromptCause where
  | backtick
  | substitution
  | openExpansion
  | substitutionInside
deriving DecidableEq, Repr

def PromptCause.message : PromptCause → Text
  | backtick => "prompt cannot contain command substitution (backticks)"
  | substitution => "prompt cannot contain command substitution ($(...))"
  | openExpansion => "unterminated $\x7b...\x7d expansion in prompt"
  | substitutionInside => "prompt cannot contain command substitution inside $\x7b...\x7d"

namespace Prompt

def isEscapable (c : Char) : Bool := c == '$' || c == '`' || c == '"' || c == '\\'

def isSpecialParameter (c : Char) : Bool := c.isDigit || "@*#?$!-".toList.contains c

/-- The expansion behind a dollar sign and the text after it; none for a dollar sign that stands for
itself. -/
def expansion : Text → Except PromptCause (Option (Text × Text))
  | [] => .ok none
  | c :: rest =>
    if c = '(' then .error .substitution
    else if c = '{' then
      match Text.cutAt (· == '}') rest with
      | none => .error .openExpansion
      | some (inner, after) =>
        if '`' ∈ inner ∨ Text.contains "$(" inner then .error .substitutionInside
        else .ok (some ('{' :: inner ++ ['}'], after))
    else if isSpecialParameter c then .ok (some ([c], rest))
    else if isNameStart c then
      .ok (some (c :: rest.takeWhile isNameChar, rest.dropWhile isNameChar))
    else .ok none

theorem length_lt_of_expansion {t e after : Text} (h : expansion t = .ok (some (e, after))) :
    after.length < t.length := by
  cases t with
  | nil => simp [expansion] at h
  | cons c rest =>
    simp only [expansion] at h
    split at h
    · cases h
    split at h
    · split at h
      · cases h
      · next hc =>
        split at h
        · cases h
        · cases h
          exact Nat.lt_succ_of_lt (Text.length_lt_of_cutAt hc)
    split at h
    · cases h
      simp
    split at h
    · cases h
      exact Nat.lt_succ_of_le (List.dropWhile_sublist _).length_le
    · cases h

def consLiteral (c : Char) : List Segment → List Segment
  | .literal t :: more => .literal (c :: t) :: more
  | segments => .literal [c] :: segments

/-- The segments of a written prompt. A backslash makes the next special character literal, joins
two lines at a line feed, and stands for itself before anything else. -/
def parse (t : Text) : Except PromptCause (List Segment) :=
  match t with
  | [] => .ok []
  | '\\' :: c :: rest =>
    if isEscapable c then (parse rest).map (consLiteral c)
    else if c = '\n' then parse rest
    else (parse (c :: rest)).map (consLiteral '\\')
  | '`' :: _ => .error .backtick
  | '$' :: rest =>
    match h : expansion rest with
    | .error e => .error e
    | .ok none => (parse rest).map (consLiteral '$')
    | .ok (some (e, after)) =>
      have := length_lt_of_expansion h
      (parse after).map (.expansion ('$' :: e) :: ·)
  | c :: rest => (parse rest).map (consLiteral c)
termination_by t.length
decreasing_by all_goals grind

def decoded (segments : List Segment) : Text :=
  segments.flatMap fun
    | .literal t => t
    | .expansion t => t

/-- A literal character as it is written in a here-document. -/
def quoteChar (c : Char) : Text := if c = '\\' ∨ c = '$' ∨ c = '`' then ['\\', c] else [c]

def body (segments : List Segment) : Text :=
  segments.flatMap fun
    | .literal t => t.flatMap quoteChar
    | .expansion t => t

def baseDelimiter : Text := "__JAIPH_PROMPT__"

theorem countP_longer_lt {lines : List Text} {d : Text} (h : d ∈ lines) :
    lines.countP (d.length < ·.length) < lines.countP (d.length ≤ ·.length) := by
  induction lines with
  | nil => cases h
  | cons line rest ih =>
      have hmono : rest.countP (d.length < ·.length) ≤ rest.countP (d.length ≤ ·.length) :=
        List.countP_mono_left fun l _ hl => by grind
      rcases List.mem_cons.mp h with rfl | h
      · simp only [List.countP_cons]
        grind
      · have hrest := ih h
        simp only [List.countP_cons]
        grind

/-- `d` with as few underscores added as make it differ from all lines. Each one added leaves fewer lines
that are as long. -/
def extendDelimiter (lines : List Text) (d : Text) : Text :=
  if d ∈ lines then extendDelimiter lines (d ++ ['_']) else d
termination_by lines.countP (d.length ≤ ·.length)
decreasing_by
  rename_i h
  have := countP_longer_lt h
  grind

/-- A delimiter that no line of the here-document equals. -/
def delimiter (body : Text) : Text := extendDelimiter body.lines baseDelimiter

end Prompt

end Runbook
