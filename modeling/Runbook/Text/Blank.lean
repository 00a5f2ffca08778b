import Runbook.Text.Basic

/-!
Blank characters and trimming. A character is blank when it has the Unicode property White_Space.
-/
namespace Runbook

def isBlankPoint (n : Nat) : Bool :=
  (0x09 ≤ n && n ≤ 0x0D) || n == 0x20 || n == 0x85 || n == 0xA0 || n == 0x1680 ||
    (0x2000 ≤ n && n ≤ 0x200A) || n == 0x2028 || n == 0x2029 || n == 0x202F || n == 0x205F ||
    n == 0x3000

/-- A blank character: one with the property White_Space. -/
def isBlank (c : Char) : Bool := isBlankPoint c.toNat

namespace Text

def trimStart (t : Text) : Text := t.dropWhile isBlank

def trimEnd : Text → Text
  | [] => []
  | c :: rest =>
    match trimEnd rest with
    | [] => if isBlank c then [] else [c]
    | d :: more => c :: d :: more

def trim (t : Text) : Text := trimEnd (trimStart t)

/-- The first run of characters that are not blank; empty for a blank text. -/
def firstWord (t : Text) : Text := (trimStart t).takeWhile (!isBlank ·)

end Text

end Runbook
