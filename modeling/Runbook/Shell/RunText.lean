import Runbook.Shell.Execution

/-!
Running texts: commands are read one line after the other, and each runs before the next is read.
-/
namespace Runbook.Shell
open ShellM Kernel

variable (e : Engine)

namespace RunText

def placeText (s : State) (label : Text) (line : Nat) : Text :=
  let named : Text := if label = [] then [] else label ++ ": "
  s.file ++ ": " ++ named ++ "line " ++ Text.ofNat line ++ ": "

def reportError (label : Text) (err : SyntaxError) : ShellM Unit := do
  let s ← get
  let stops := s.isOn .errexit
  let reports := if stops then err.reports.take 1 else err.reports
  for (line, t) in reports do
    let _ ← write 2 (placeText s label line ++ t ++ ['\n'])
  setStatus err.status
  if stops then
    setStatus 2
    jump .leaveShell

def showLines (before after : Input) : ShellM Unit := do
  if (← get).isOn .verbose ∧ before.rest ≠ [] then
    let count := after.line - before.line
    let lines := (after.lines.toList.drop (before.line - before.first)).take (max count 1)
    let _ ← write 2 (lines.flatMap (· ++ ['\n']))

def runRead (c : Command) : ShellM Unit := do
  match ← attempt (e.run c) with
  | .ok () => return ()
  | .error .discard => if (← get).isSubshell then jump .discard else return ()
  | .error j => jump j

/-- Runs the commands of a text. `any` tells that there has been one. -/
def from_ (label : Text) : Nat → Bool → Input → ShellM Unit
  | 0, _, _ => return ()
  | fuel + 1, any, i => do
    let (reading, next) := readLine (← get).dialect i
    showLines i next
    for (line, t) in next.warnings do
      let _ ← write 2 (placeText (← get) [] line ++ t ++ ['\n'])
    match reading with
    | .stop => if !any then setStatus 0
    | .failed err =>
      reportError label err
      if err.discards then from_ label fuel true next
    | .command c =>
      modify fun s => { s with line := next.line - 1 }
      runRead e c
      from_ label fuel true next

def onlyInput? (d : Dialect) (t : Text) : Option Redirect :=
  if (t.dropWhile (·.isWhitespace)).head? ≠ some '<' then none
  else
    match readLine d (Input.ofText 1 t) with
    | (.command (.simple _ [] [r]), i) | (.command (.list [(.simple _ [] [r], _)]), i) =>
      if r.source = .usual ∧ r.kind = .input ∧ i.rest.all Char.isWhitespace then some r else none
    | _ => none

def copyInput (r : Redirect) : ShellM Unit :=
  Redirection.within e [r] fun changes => do
    let t := (← lift (Proc.readAll 0)).toOption.getD []
    let _ ← write 1 t
    Redirection.undo changes
    setStatus 0

def run (source : Source) (t : Text) : ShellM Unit := do
  let old := (← get).level
  if !source.isMain then modify fun s => { s with level := s.level + 1 }
  let all := from_ e source.label (t.length + 2) false (Input.ofText source.line t)
  let work :=
    if source.isSubstituted then
      do
        match onlyInput? (← get).dialect t with
        | some r => copyInput e r
        | none => all
    else all
  after work (modify fun s => { s with level := old })

/-! Commands that come in as they are needed. -/

/-- Reads lines from a descriptor until they make whole commands, and runs them. `line` is the number
of the next one; `held` is what has been read and does not yet make sense. -/
def fromDescriptor (fd : Nat) : Nat → Nat → Text → ShellM Unit
  | 0, _, _ => return ()
  | fuel + 1, line, held => do
    let got := (← lift (Proc.readThrough fd '\n' 65536)).toOption.getD []
    let text := held ++ got
    let ended := got = []
    if text = [] then return ()
    else if !ended ∧ got.getLast? ≠ some '\n' then fromDescriptor fd fuel line text
    else
      let i := Input.ofText line text
      let (reading, next) := readLine (← get).dialect i
      let lines := (text.filter (· == '\n')).length
      match reading with
      | .stop => if ended then return () else fromDescriptor fd fuel (line + lines) []
      | .failed err =>
        let isOpen := err.isEnd || err.reports.any fun (_, t) => Text.startsWith t "unexpected EOF"
        if isOpen ∧ !ended then fromDescriptor fd fuel line text
        else do
          reportError [] err
          if err.discards then fromDescriptor fd fuel (line + lines) []
      | .command c =>
        let waits := !ended && (next.warnings.any fun (_, t) => Text.startsWith t "warning: here-document")
        if waits then fromDescriptor fd fuel line text
        else
          modify fun s => { s with line := next.line - 1 }
          runRead e c
          if ended then return () else fromDescriptor fd fuel (line + lines) []

end RunText

end Runbook.Shell
