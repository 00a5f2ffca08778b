import Runbook.Event

/-!
What the functions of the runtime library make of the name of a step's function: the marker in it that
starts first tells the kind, and the short name follows that marker.
-/
namespace Runbook.Shell

/-- Of the markers, the one that starts first in the name, with the length of what precedes it. A later
one takes the place of an earlier one only if less precedes it. -/
def leftmostOf (func : Text) : List Text → Option (Nat × Text) → Option (Nat × Text)
  | [], best => best
  | marker :: rest, best =>
    match Text.cut marker func with
    | none => leftmostOf func rest best
    | some (head, _) =>
      leftmostOf func rest <|
        if best.all fun found => head.length < found.1 then some (head.length, marker) else best

def stepMarker (func : Text) : Option Text :=
  (leftmostOf func (kindMarkers.map (·.1)) none).map (·.2)

def stepKind (func : Text) : Text :=
  match stepMarker func with
  | some marker => (marker.drop 2).dropLast
  | none => if func = promptFunction then RowKind.prompt.text else RowKind.step.text

def stepName (func : Text) : Text :=
  match stepMarker func with
  | some marker => ((Text.cut marker func).map (·.2)).getD func
  | none => if func = promptFunction then RowKind.prompt.text else func

end Runbook.Shell
