import Runbook.RunTree
import Runbook.Text.Lines
import Runbook.Text.Utf8

/-!
Progress of a run. On a terminal one row is drawn as running, redrawn in place and left standing once it is
resolved; elsewhere each resolved row is printed once.
-/
namespace Runbook

structure Written where
  out : Bytes := []
  err : Bytes := []
deriving DecidableEq, Repr

def Written.append (a b : Written) : Written := ⟨a.out ++ b.out, a.err ++ b.err⟩

instance : Append Written := ⟨Written.append⟩

def Written.toOut (t : Text) : Written := { out := Utf8.encode t }

def Written.toErr (t : Text) : Written := { err := Utf8.encode t }

structure FailureLogs where
  runDir : Path
  outFile : Option Path
  errFile : Option Path
deriving DecidableEq, Repr

/-- How progress is drawn, and the row drawn as running. -/
structure Progress where
  interactive : Bool
  color : Bool
  active : Option Nat := none
deriving DecidableEq, Repr

namespace Progress

variable (p : Progress)

def clearLine : Text := "\r\x1b[2K"

def bold : Text := "\x1b[1m"

def dim : Text := "\x1b[2m"

def green : Text := "\x1b[32m"

def red : Text := "\x1b[31m"

def reset : Text := "\x1b[0m"

def styled (style t : Text) : Text := if p.color then style ++ t ++ reset else t

def label (r : Row) : Text := p.styled bold r.kind.text ++ " " ++ r.name

def runningLine (r : Row) (secs : Nat) : Text :=
  clearLine ++ r.margin ++ Row.lastBranch ++ p.label r ++ " " ++
    p.styled dim ("(running " ++ Text.ofNat secs ++ "s)")

def printedLine (r : Row) (s : RowState) : Text :=
  let ending : Text := if s.status = .failed then "s failed)" else "s)"
  r.margin ++ r.branchText.getD [] ++ p.label r ++ " " ++
    p.styled dim ("(" ++ Text.ofNat (s.secs.getD 0) ++ ending) ++ ['\n']

def committedLine (r : Row) (s : RowState) : Text :=
  clearLine ++ r.margin ++ Row.middleBranch ++ p.label r ++ " " ++
    p.styled dim ("(" ++ Text.ofNat (s.secs.getD 0) ++ "s)") ++ ['\n']

def drawRunning (t : RunTree) (secs : Nat) : Text :=
  match p.active.bind (t.rows[·]?) with
  | some (row, _) => p.runningLine row secs
  | none => []

def redraw (t : RunTree) (secs : Nat) : Text :=
  if p.interactive then p.drawRunning t secs else []

def start (t : RunTree) : Progress × Written :=
  let root :=
    match t.rows.head? with
    | some (row, _) => p.label row ++ ['\n']
    | none => ['\n']
  let p := if p.interactive ∧ 1 < t.rows.length then { p with active := some 1 } else p
  (p, .toOut (root ++ p.redraw t 0))

/-- A step has started: on a terminal its row becomes the active one. -/
def stepStarted (t : RunTree) (index : Nat) : Progress × Written :=
  if p.interactive then
    let p := { p with active := some index }
    (p, .toOut (p.drawRunning t 0))
  else (p, {})

/-- Leaves resolved rows standing from the row `index` on, up to the next pending one, which becomes
active. -/
def commit (p : Progress) (index : Nat) : List (Row × RowState) → Option Nat × Text
  | [] => (some index, [])
  | (row, state) :: rest =>
    if state.status = .pending then (some index, [])
    else
      let line := p.committedLine row state
      match rest with
      | [] => (none, line)
      | (next, s) :: more =>
        let (active, text) := p.commit (index + 1) ((next, s) :: more)
        (active, line ++ p.runningLine next 0 ++ text)

def stepFinished (t : RunTree) (index : Nat) : Progress × Written :=
  if p.interactive then
    match p.active with
    | some first =>
      let (active, text) := p.commit first (t.rows.drop first)
      ({ p with active := active }, .toOut text)
    | none => (p, {})
  else
    match t.rows[index]? with
    | some (row, state) => (p, .toOut (p.printedLine row state))
    | none => (p, {})

def tick (t : RunTree) (secs : Nat) : Progress × Written :=
  (p, .toOut (p.redraw t secs))

def childOutput (t : RunTree) (chunk : Bytes) (secs : Nat) : Progress × Written :=
  let clear := if p.interactive then Utf8.encode clearLine else []
  (p, { out := clear ++ chunk ++ Utf8.encode (p.redraw t secs) })

def diagnostic (t : RunTree) (line : Text) (secs : Nat) : Progress × Written :=
  let clear := if p.interactive then clearLine ++ ['\n'] else []
  (p, .toOut (clear ++ p.redraw t secs) ++ .toErr (line ++ ['\n']))

/-- Settles the tree after the script has ended. On a terminal the rows from the active one on are
left standing; if none is active nothing changes. -/
def finish (t : RunTree) (success : Bool) : Progress × RunTree × Written :=
  if p.interactive then
    match p.active with
    | some first =>
      let t := t.reconcile first success
      let text := (t.rows.drop first).flatMap fun (row, state) => p.committedLine row state
      ({ p with active := none }, t, .toOut text)
    | none => (p, t, {})
  else (p, t.reconcile 1 success, {})

def pass (ms : Nat) : Written :=
  .toOut (p.styled green "✓ PASS" ++ " workflow default " ++
    p.styled dim ("(" ++ Text.ofNat ms ++ "ms)") ++ ['\n'])

def fail (ms : Nat) (summary : Text) (logs : Option FailureLogs) : Written :=
  let pointers :=
    match logs with
    | some logs =>
      let file (name : Text) (path : Option Path) : Text :=
        match path with
        | some path => "    " ++ name ++ ": " ++ path.text ++ ['\n']
        | none => []
      "  Logs: " ++ logs.runDir.text ++ ['\n'] ++ file "out" logs.outFile ++ file "err" logs.errFile
    | none => []
  .toErr (p.styled red "✗ FAIL" ++ " workflow default " ++
    p.styled dim ("(" ++ Text.ofNat ms ++ "ms)") ++ "\n  " ++ summary ++ ['\n'] ++ pointers)

end Progress

/-- The last line that is not blank, trimmed, or a general message. -/
def summarize (diagnostics : Text) : Text :=
  let said := (diagnostics.lines.map Text.trim).filter (· ≠ [])
  said.getLast?.getD "Workflow execution failed."

end Runbook
