import Runbook.Shell.Engine

/-!
Traces: what the shell says of a command before it runs, if it is told to.
-/
namespace Runbook.Shell
open ShellM Kernel

variable (e : Engine)

def traceQuote (t : Text) : Text :=
  if t = [] then "''"
  else if needsQuotes t then singleQuote t
  else if needsEscapes t then escapedQuote t
  else t

namespace Trace

def lead : ShellM Text := do
  let s ← get
  match s.text? "PS4" with
  | none | some [] => return []
  | some t =>
    modify fun s => s.turn .xtrace false
    let shown ← attempt (Expansion.documentText (Engine.substituter e) (Part.promptText s (t.length + 1) t))
    modify fun now =>
      { now with
        settings := s.settings
        status := s.status
        substituted := s.substituted }
    match shown with
    | .ok (c :: rest) => return List.replicate s.level c ++ rest
    | _ => return []

def channel (s : State) : Nat :=
  match s.text? "BASH_XTRACEFD" with
  | some t => if t ≠ [] ∧ t.all Char.isDigit then State.decimal t else 2
  | none => 2

def line (t : Text) : ShellM Unit := do
  if (← get).isOn .xtrace then
    let start ← lead e
    let _ ← write (channel (← get)) (start ++ t ++ ['\n'])

def words (ws : List Text) : ShellM Unit :=
  line e ([' '].intercalate (ws.map traceQuote))

def assignment (target value : Text) : ShellM Unit :=
  line e (target ++ (if value = [] then [] else traceQuote value))

end Trace

end Runbook.Shell
