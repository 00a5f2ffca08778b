import Runbook.Text.Basic

/-!
Lines of a text. A line ends at a line feed, a carriage return directly before that line feed
belongs to the line end, and an empty last line is no line.
-/
namespace Runbook.Text

def lines : Text → List Text
  | [] => []
  | c :: rest =>
    if c = '\n' then [] :: lines rest
    else if c = '\r' ∧ rest.head? = some '\n' then lines rest
    else
      match lines rest with
      | [] => [[c]]
      | line :: more => (c :: line) :: more

/-- Lines set one below the other, with a line feed between neighbours. -/
def unlines (ls : List Text) : Text := ['\n'].intercalate ls

end Runbook.Text
