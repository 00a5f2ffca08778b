import Runbook.Shell.Pattern

/-!
Characters of a word on their way through its expansion: each remembers whether it was quoted or came
out of a replacement, because later steps look at that.
-/
namespace Runbook.Shell

/-- Where a character comes from: it was written without quotes, it was quoted, or it is part of a
value that can still be split. -/
inductive Origin where
  | plain
  | quoted
  | value
deriving DecidableEq

/-- A character, quotes that may hold nothing, or the border between two fields. -/
inductive Glyph where
  | char (c : Char) (o : Origin)
  | quotes
  | border

namespace Glyph

def ofText (o : Origin) (t : Text) : List Glyph := t.map (char · o)

def text (gs : List Glyph) : Text :=
  gs.filterMap fun
    | char c _ => some c
    | _ => none

def patternChars (gs : List Glyph) : List PatternChar :=
  gs.filterMap fun
    | char c o => some ⟨c, o = .quoted⟩
    | _ => none

def asValue (gs : List Glyph) : List Glyph :=
  gs.map fun
    | char c .plain => char c .value
    | g => g

/-! Splitting. -/

/-- How far splitting has come: the field so far, the last first, whether there is one, and whether a
blank ended the one before. -/
structure Splitting where
  field : List Glyph := []
  hasField : Bool := false
  afterBlank : Bool := false

def isBlankDivider (c : Char) : Bool := c == ' ' || c == '\t' || c == '\n'

/-- Splits at borders and at dividers in values. Blanks among the dividers count once and not at the
ends; any other divider ends a field, even an empty one. -/
def splitFrom (dividers : Text) : Splitting → List Glyph → List (List Glyph)
  | s, [] => if s.hasField then [s.field.reverse] else []
  | s, border :: rest =>
    if s.hasField then s.field.reverse :: splitFrom dividers {} rest else splitFrom dividers {} rest
  | s, quotes :: rest => splitFrom dividers { s with hasField := true, afterBlank := false } rest
  | s, char c o :: rest =>
    if o = .value ∧ c ∈ dividers then
      if isBlankDivider c then
        if s.hasField then s.field.reverse :: splitFrom dividers { afterBlank := true } rest
        else splitFrom dividers s rest
      else if s.hasField then s.field.reverse :: splitFrom dividers {} rest
      else if s.afterBlank then splitFrom dividers {} rest
      else [] :: splitFrom dividers {} rest
    else splitFrom dividers { field := char c o :: s.field, hasField := true } rest

def split (dividers : Text) (gs : List Glyph) : List (List Glyph) := splitFrom dividers {} gs

end Glyph

end Runbook.Shell
