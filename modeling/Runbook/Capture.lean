import Runbook.Clock

/-!
Names of the files that keep the output of a step: when it started, its number in the run, and the
name of its function. The runtime library makes them, in the C locale, in which a character is a byte and
only ASCII letters and digits are alphanumeric.
-/
namespace Runbook

def isCaptureChar (c : Char) : Bool := c.isAlphanum || c == '_' || c == '.' || c == '-'

/-- The pattern of the characters that may not stand in a name. -/
def strayPattern : Text := "[^[:alnum:]_.-]"

/-- A name in which every byte that may not stand there is an underscore. -/
def safeName (t : Text) : Text :=
  t.flatMap fun c => if isCaptureChar c then [c] else List.replicate c.utf8Size '_'

def captureName (started : DateTime) (number : Nat) (func : Text) : Text :=
  started.compact ++ "-" ++ padded 3 number ++ "-" ++ safeName func

end Runbook
