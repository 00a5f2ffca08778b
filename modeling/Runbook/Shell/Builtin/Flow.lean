import Runbook.Shell.Builtin.Usage
import Runbook.Shell.FileTest

/-!
The commands that leave loops, functions and the shell, run texts and files, and replace the shell by
a program.
-/
namespace Runbook.Shell
open ShellM Kernel

namespace Builtin

def succeed : Run := fun _ _ => setStatus 0

def fail : Run := fun _ _ => setStatus 1

def tooMany {α : Type} (name : Text) : ShellM α := do
  complain name "too many arguments"
  setStatus 1
  jump .discard

def dropDashes (args : List Text) : List Text :=
  match args with
  | ['-', '-'] :: rest => rest
  | args => args

/-! Loops. -/

def loopCount (name : Text) (args : List Text) : ShellM Int := do
  match dropDashes args with
  | [] => return 1
  | t :: rest =>
    match FileTest.integer? t with
    | none =>
      complain name (t ++ ": numeric argument required")
      modify fun s => { s with status := if s.status < 128 then s.status + 128 else s.status }
      jump .leaveShell
    | some n => if rest = [] then return n else tooMany name

def leaveLoops (name : Text) (j : Nat → Jump) (args : List Text) : ShellM Unit := do
  let s ← get
  if s.loops = 0 then
    complain name "only meaningful in a \x60for', \x60while', or \x60until' loop"
    setStatus 0
  else
    let n ← loopCount name args
    if n ≤ 0 then
      complain name (Text.ofInt n ++ ": loop count out of range")
      setStatus 1
      jump (.leaveLoop s.loops)
    else
      setStatus 0
      jump (j (min n.toNat s.loops))

def break_ : Run := fun _ args => leaveLoops "break" .leaveLoop args

def continue_ : Run := fun _ args => leaveLoops "continue" .nextRound args

/-! Functions and the shell. -/

def statusOf (name : Text) (args : List Text) : ShellM Unit := do
  match dropDashes args with
  | [] => return ()
  | t :: rest =>
    match FileTest.integer? t with
    | none =>
      complain name (t ++ ": numeric argument required")
      setStatus 2
    | some n => if rest = [] then setStatus (n % 256).toNat else tooMany name

def canReturn (s : State) : Bool := s.frames.any fun f => f.isFunction || f.name = "source"

def return_ : Run := fun _ args => do
  if canReturn (← get) then do
    statusOf "return" args
    jump .leaveFunction
  else do
    complain "return" "can only \x60return' from a function or sourced script"
    setStatus 2

def exit : Run := fun _ args => do
  statusOf "exit" args
  jump .leaveShell

def logout : Run := fun _ _ => do
  complain "logout" "not login shell: use \x60exit'"
  setStatus 1

def shift : Run := fun _ args => do
  let s ← get
  match dropDashes args with
  | [] =>
    if s.arguments = [] then setStatus 1
    else ShellM.setStatus 0 *> modify fun s => { s with arguments := s.arguments.drop 1 }
  | t :: rest =>
    match FileTest.integer? t with
    | none =>
      complain "shift" (t ++ ": numeric argument required")
      setStatus 1
    | some n =>
      if rest ≠ [] then tooMany "shift"
      else if n < 0 then
        complain "shift" (t ++ ": shift count out of range")
        setStatus 1
      else if s.arguments.length < n.toNat then
        if s.does "shift_verbose" then complain "shift" (t ++ ": shift count out of range")
        setStatus 1
      else
        modify fun s => { s with arguments := s.arguments.drop n.toNat }
        setStatus 0

/-! Texts and files. -/

def eval : Run := fun e args =>
  withOptions "eval" { plain := [] } args fun _ operands => do
    if operands = [] then setStatus 0
    else
      let s ← get
      setStatus 0
      e.runText { label := "eval", line := s.line } ([' '].intercalate operands)

def sourceFile (name : Text) : ShellM Text := do
  let s ← get
  if '/' ∈ name ∨ !s.does "sourcepath" then return name
  else
    match s.text? "PATH" with
    | none => return name
    | some path =>
      match ← Engine.searchReadable name (Engine.pathParts path) with
      | some found => return found
      | none => return name

/-- The text of a file as it is run, and how many zero bytes were passed over. The byte behind one is
taken as it comes, so two together end the text. -/
def sourced : Text → Text × Nat
  | [] => ([], 0)
  | ['\x00'] => ([], 1)
  | '\x00' :: c :: rest =>
    let (t, n) := sourced rest
    (if c = '\x00' then [] else c :: t, n + 1)
  | c :: rest =>
    let (t, n) := sourced rest
    (c :: t, n)

def sourceAs (cmd : Text) : Run := fun e args =>
  withOptions cmd { plain := [] } args fun _ operands =>
    match operands with
    | [] => do
      complain cmd "filename argument required"
      showUsage cmd
    | name :: rest => do
      let path ← sourceFile name
      let r ← lift <| Proc.opening path .forReading fun pid => do
        let i ← Sys.stat pid true path
        if (← Sys.disk).isDirectory i then return none
        else return some (← Sys.openFrom pid 10 path .forReading 0)
      match r with
      | .error f =>
        report (name ++ ": " ++ f.message)
        setStatus 1
      | .ok none =>
        complain cmd (name ++ ": is a directory")
        setStatus 1
      | .ok (some fd) =>
        let t ← lift (Proc.readAll fd)
        Engine.closeDescriptor fd
        let (text, zeros) := sourced (t.toOption.getD [])
        if 256 < zeros then
          complain cmd (path ++ ": cannot execute binary file")
          setStatus 126
          return
        let s ← get
        let old := s.arguments
        let hidden := s.traps.filter fun (o, _) => o = .before && !s.isOn .functrace
        ShellM.setStatus 0
        modify fun now =>
          { now with
            frames := ⟨"source", s.line, path, false⟩ :: s.frames
            arguments := if rest = [] then old else rest
            traps := now.traps.filter (· ∉ hidden) }
        let entered := (← get).arguments
        let r ← attempt (e.runText { line := 1, isFile := true } text)
        match r with
        | .ok () | .error .leaveFunction => Engine.runReturning e
        | _ => pure ()
        modify fun now =>
          { now with
            frames := s.frames
            line := s.line
            traps := if now.traps.any (·.1 = .before) then now.traps else now.traps ++ hidden
            arguments :=
              if rest = [] ∨ (!s.inFunction ∧ !now.arguments.isSuffixOf entered) then now.arguments else old }
        match r with
        | .error .leaveFunction => return ()
        | r => resume r

def source : Run := sourceAs "source"

def dot : Run := sourceAs "."

/-- Replaces the shell by a program. If that fails, the shell ends, unless it is told to go on. -/
def exec : Run := fun e args =>
  withOptions "exec" { plain := "cl", valued := "a" } args fun os operands =>
    match operands with
    | [] => setStatus 0
    | name :: rest => do
      let s ← get
      let env ← if has os 'c' then pure [] else Engine.environment
      let shown := (value? os 'a').getD name
      let shown := if has os 'l' then '-' :: shown else shown
      let found ← Engine.findProgram name
      let stays := s.does "execfail"
      let path? ←
        match found with
        | some path =>
          if '/' ∉ name ∧ (← Engine.fileKind path) = .none then pure none else pure (some path)
        | none => pure none
      match path? with
      | none =>
        complain "exec" (name ++ ": not found")
        setStatus 127
        if !stays then jump .leaveShell
      | some path =>
        Engine.execute e path (shown :: rest) env
        let reason : Option Text :=
          match ← Engine.fileKind path with
          | .directory => some "Is a directory"
          | .plain => some "Permission denied"
          | _ => none
        match reason with
        | some t => complain "exec" (path ++ ": cannot execute: " ++ t)
        | none => pure ()
        if !stays then jump .leaveShell

end Builtin

end Runbook.Shell
