import Runbook.Shell.Fields

/-!
What the parts of the shell need of each other: running commands and texts, becoming a program, starting
processes, waiting for them and running traps.
-/
namespace Runbook.Shell
open ShellM Kernel Sys

abbrev Environment := List (Text × Text)

def Environment.get? (env : Environment) (name : Text) : Option Text := env.lookup name

structure Source where
  label : Text := []
  line : Nat := 1
  isMain : Bool := false
  isSubstituted : Bool := false
  /-- A file, whose commands run as deep as the ones around it. -/
  isFile : Bool := false

/-- What a command's name may mean: a function, a program, or only a command of the shell. -/
inductive Meaning where
  | any
  | noFunction
  | builtin

structure Engine where
  run : Command → ShellM Unit
  runText : Source → Text → ShellM Unit
  runWords : Meaning → List Text → ShellM Unit
  become : (path : Text) → (args : List Text) → Environment → Proc Unit

variable (e : Engine)

namespace Engine

/-! Processes. -/

def forgetCoprocesses (pids : List Nat) : ShellM Unit := do
  for (pid, name) in (← get).coprocesses do
    if pid ∈ pids then
      let ends := (((← get).lookup? name).map fun v => v.value.elements.map (·.2)).getD []
      for t in ends do
        tell fun own => close own (State.decimal t)
      modify fun s =>
        { (s.erase name).erase (name ++ "_PID") with coprocesses := s.coprocesses.filter (·.1 ≠ pid) }

def waitFor (pid : Nat) : ShellM Ending := do
  let s ← get
  match s.ended.lookup pid with
  | some status =>
    set { s with ended := s.ended.filter (·.1 ≠ pid) }
    return .exited status
  | none =>
    let r ← lift (Proc.await fun own => do
      let ended ← endedChildren own
      match ended.lookup pid with
      | some e =>
        reap pid
        return some e
      | none =>
        if ((← get).processes.lookup pid).isSome then return none else return some (.exited 127))
    match r with
    | .ok e =>
      forgetCoprocesses [pid]
      return e
    | .error _ => return .exited 127

def collect : ShellM Unit := do
  let r ← call fun own => do
    let ended ← endedChildren own
    for (pid, _) in ended do
      reap pid
    return ended
  match r with
  | .ok [] | .error _ => return ()
  | .ok ended =>
    modify fun s =>
      { s with
        ended := ended.map (fun (pid, e) => (pid, e.status)) ++ s.ended
        jobs := s.jobs.map fun j =>
          match j.pids.getLast? with
          | some last => (ended.lookup last).elim j fun e => { j with state := .ended e }
          | none => j }
    forgetCoprocesses (ended.map (·.1))

/-! Traps. -/

def trap? (o : Occasion) : ShellM (Option Text) := do return (← get).traps.lookup o

def runTrapText (source : Source) (t : Text) : ShellM Unit := do
  let s ← get
  let (status, pipes, line) := (s.status, s.pipeStatus, s.line)
  e.runText source t
  modify fun s => { s with status := status, pipeStatus := pipes, line := line }

def terminating : List Nat := [1, 2, 4, 5, 6, 7, 8, 10, 11, 12, 13, 14, 15, 24, 25, 26, 27, 31]

def isTerminating (n : Nat) : Bool := terminating.contains n

/-- Runs the trap for the end of the shell, once. What it leaves with counts only if it ends the shell
itself. -/
def runLeaving : ShellM Unit := do
  match ← trap? .leaving with
  | some (c :: t) =>
    let s ← get
    modify fun s =>
      { s with
        traps := s.traps.filter (·.1 ≠ .leaving)
        level := if s.isSubshell then s.level else 0
        ignoresErrors := false }
    let r ← attempt (e.runText { line := 1, label := "exit trap" } (c :: t))
    match r with
    | .error .leaveShell | .error .abort => return ()
    | _ => setStatus s.status
  | _ => return ()

def runPending : ShellM Unit := do
  let r ← call fun pid => do
    let signals ← takePending pid
    return (signals, (← get).clock.millis)
  match r with
  | .error _ => return ()
  | .ok (signals, now) =>
    modify fun s => { s with now := now }
    for signal in signals do
      match ← trap? (.signal signal) with
      | some [] => pure ()
      | none =>
        if isTerminating signal then
          let _ ← attempt (runLeaving e)
          tell fun pid => dispose pid signal .usual
          finish (.signaled signal)
      | some t =>
        let line := (← get).line
        runTrapText e { line := 1, label := "trap" } t
        modify fun s => { s with line := line }

/-- Runs the trap for an occasion that is no signal, as if it stood on a line, unless another one is
running. -/
def runOccasion (o : Occasion) (line : Nat) (label : Text) : ShellM Unit := do
  match ← trap? o with
  | some (c :: t) =>
    if !(← get).runningTrap then
      modify fun s => { s with runningTrap := true }
      after (runTrapText e { line := line, label := label } (c :: t))
        (modify fun s => { s with runningTrap := false })
  | _ => return ()

def runError : ShellM Unit := do runOccasion e .error (← get).errorLine "error trap"

def runBefore : ShellM Unit := do runOccasion e .before (← get).line "debug trap"

def runReturning : ShellM Unit := do runOccasion e .returning (← get).line "return trap"

/-! Subshells. -/

/-- What a copy of the shell forgets: traps that run something, and jobs unless it is to show them. -/
def becomeSubshell (deeper keepsJobs : Bool) : ShellM Unit := do
  let s ← get
  tell fun pid => modifyProcess pid fun p =>
    { p with dispositions := p.dispositions.filter (·.2 = .ignored) }
  let keeps (o : Occasion) (t : Text) : Bool :=
    t.isEmpty ||
      match o with
      | .error => s.isOn .errtrace
      | .before | .returning => s.isOn .functrace
      | _ => false
  modify fun s =>
    { s with
      inheritedTraps := s.traps
      traps := s.traps.filter fun (o, t) => keeps o t
      jobs := if keepsJobs then s.jobs else []
      ended := []
      coprocesses := []
      isSubshell := true
      seed := s.seed + 7919 * s.pid
      depth := if deeper then s.depth + 1 else s.depth }

def subshellLife (deeper keepsJobs : Bool) (body : ShellM Unit) : ShellM Unit := do
  becomeSubshell deeper keepsJobs
  let r ← attempt body
  match r with
  | .error .discard | .error .abort => if (← get).status = 0 then setStatus 1
  | _ => pure ()
  let _ ← attempt (runLeaving e)

def forkSubshell (deeper : Bool) (body : ShellM Unit) : ShellM Nat :=
  fork (subshellLife e deeper false body)

def forkWithJobs (deeper : Bool) (body : ShellM Unit) : ShellM Nat :=
  fork (subshellLife e deeper true body)

/-! Descriptors. -/

def moveDescriptor (source target : Nat) : ShellM Unit :=
  tell fun pid => do
    if source ≠ target then
      duplicate pid source target
      close pid source

def closeDescriptor (fd : Nat) : ShellM Unit := tell fun pid => close pid fd

def openPipe (start : Nat) : ShellM (Nat × Nat) := do
  let r ← call fun pid => do
    let (reader, writer) ← newPipe
    return (← installFrom pid start reader false, ← installFrom pid start writer false)
  match r with
  | .ok ends => return ends
  | .error _ => return (start, start + 1)

def highDescriptor : ShellM Nat := do
  let r ← call fun pid => do
    let used := (← process pid).descriptors.map (·.1)
    return ((List.range 54).map (63 - ·)).find? (· ∉ used)
  match r with
  | .ok (some fd) => return fd
  | _ => return 63

/-! Commands in words. -/

def dropNewlines (t : Text) : Text := (t.reverse.dropWhile (· == '\n')).reverse

def substitute (body : Text) (isBack : Bool) : ShellM Text := do
  let s ← get
  let (reader, writer) ← openPipe 3
  let source : Source :=
    { line := s.line, label := if isBack then "command substitution" else [], isSubstituted := true }
  let child ← forkWithJobs e true do
    closeDescriptor reader
    moveDescriptor writer 1
    if !s.does "inherit_errexit" then modify fun s => s.turn .errexit false
    modify fun s => { s with ignoresErrors := false, loops := 0 }
    e.runText source body
  closeDescriptor writer
  let out ← lift (Proc.readAll reader)
  closeDescriptor reader
  let ending ← waitFor child
  modify fun s => { s with substituted := some ending.status, status := ending.status }
  let t := (out.toOption).getD []
  if '\x00' ∈ t then
    report "warning: command substitution: ignored null byte in input"
  return dropNewlines (t.filter (· ≠ '\x00'))

def beside (isOutput : Bool) (body : Text) : ShellM Text := do
  let s ← get
  let (reader, writer) ← openPipe 3
  let fd ← highDescriptor
  let (own, other) := if isOutput then (writer, reader) else (reader, writer)
  let child ← forkSubshell e true do
    closeDescriptor own
    moveDescriptor other (if isOutput then 0 else 1)
    modify fun s => { s with ignoresErrors := false, loops := 0 }
    e.runText { line := s.line } body
  closeDescriptor other
  moveDescriptor own fd
  modify fun s => { s with opened := fd :: s.opened, background := some child }
  return "/dev/fd/" ++ Text.ofNat fd

def substituter : Substituter := ⟨substitute e, beside e⟩

/-! Finding programs. -/

def pathParts (t : Text) : List Text :=
  (t.splitOn ':').map fun p => if p = [] then ['.'] else p

inductive FileKind where
  | none
  | directory
  | plain
  | runnable
deriving DecidableEq

def fileKind (path : Text) : ShellM FileKind := do
  let r ← call fun pid => do
    let i ← stat pid true path
    return (← disk).node i
  match r with
  | .error _ => return .none
  | .ok node =>
    match node.content with
    | .directory .. => return .directory
    | _ => return if node.mode &&& 0o111 ≠ 0 then .runnable else .plain

def searchIn (name : Text) : List Text → Option Text → ShellM (Option Text)
  | [], found => return found
  | dir :: rest, found => do
    let path := under dir name
    match ← fileKind path with
    | .runnable => return some path
    | .plain => searchIn name rest (found.or (some path))
    | _ => searchIn name rest found

def searchReadable (name : Text) : List Text → ShellM (Option Text)
  | [] => return none
  | dir :: rest => do
    let path := under dir name
    match ← fileKind path with
    | .runnable | .plain => return some path
    | _ => searchReadable name rest

def findProgram (name : Text) : ShellM (Option Text) := do
  if '/' ∈ name then return some name
  else if name = [] then return none
  else
    let s ← get
    match s.text? "PATH" with
    | some [] | none => return some name
    | some path => searchIn name (pathParts path) none

def findHashed (name : Text) : ShellM (Option Text) := do
  if '/' ∈ name then return some name
  else
    match (← get).hashed.lookup name with
    | some (path, hits) =>
      modify fun s =>
        { s with hashed := s.hashed.map fun (n, p, h) => if n = name then (n, p, hits + 1) else (n, p, h) }
      return some path
    | none =>
      let found ← findProgram name
      match found with
      | some path =>
        if '/' ∈ path then
          if (← fileKind path) = .runnable then
            modify fun s => { s with hashed := s.hashed ++ [(name, path, 1)] }
      | none => pure ()
      return found

/-! The environment of programs. -/

def exportedFunction (name : Text) (f : Function) : Text × Text :=
  ("BASH_FUNC_" ++ name ++ "%%", functionText [] f.body)

def environment : ShellM Environment := do
  let s ← get
  let values := s.visible.filterMap fun (name, v) =>
    if v.attributes.exported then
      match v.value with
      | .one t => some (name, t)
      | _ => none
    else none
  let functions := (s.functions.filter (·.2.exported)).map fun (name, f) => exportedFunction name f
  return values ++ functions

/-! Becoming a program. -/

def refusal (path : Text) (f : Fault) : Text × Nat :=
  match f with
  | .notFound => (path ++ ": No such file or directory", 127)
  | f => (path ++ ": " ++ f.message, 126)

def interpreter? (t : Text) : Option (Text × Option Text) :=
  match t with
  | '#' :: '!' :: rest =>
    let isBlank (c : Char) : Bool := c == ' ' || c == '\t'
    let line := (rest.takeWhile (· ≠ '\n')).dropWhile isBlank
    let program := line.takeWhile fun c => !isBlank c
    let argument := ((line.drop program.length).dropWhile isBlank)
    let argument := (argument.reverse.dropWhile isBlank).reverse
    some (program, if argument = [] then none else some argument)
  | _ => none

def isBinary (t : Text) : Bool :=
  Text.startsWith t "\x7fELF" || ((t.take 80).takeWhile (· ≠ '\n')).any (· == '\x00')

/-- Runs a file in place of the shell. A file without an interpreter is run by the shell itself, from
the start. -/
def execute (path : Text) (args : List Text) (env : Environment) : ShellM Unit := do
  let say (t : Text) (status : Nat) : ShellM Unit := failWith status t
  match ← fileKind path with
  | .directory => say (path ++ ": Is a directory") 126
  | .none =>
    let r ← call fun pid => stat pid true path
    match r with
    | .error f =>
      let (t, status) := refusal path f
      say t status
    | .ok _ => say (path ++ ": No such file or directory") 127
  | .plain => say (path ++ ": Permission denied") 126
  | .runnable => do
    let r ← call fun pid => do
      let i ← stat pid true path
      return (← disk).content i
    match r with
    | .ok (.data t) =>
      match interpreter? t with
      | some (program, argument) =>
        match ← fileKind program with
        | .none => say (path ++ ": cannot execute: required file not found") 127
        | .directory | .plain => say (path ++ ": " ++ program ++ ": bad interpreter: Permission denied") 126
        | .runnable =>
          tell fun pid => startProgram pid
          lift (e.become program (program :: argument.toList ++ path :: args.drop 1) env)
      | none =>
        if isBinary t then say (path ++ ": cannot execute binary file: Exec format error") 126
        else
          tell fun pid => startProgram pid
          lift (e.become "/usr/bin/bash" ("bash" :: path :: args.drop 1) env)
    | .ok _ =>
      tell fun pid => startProgram pid
      lift (e.become path args env)
    | .error f =>
      let (t, status) := refusal path f
      say t status

end Engine

end Runbook.Shell
