import Runbook.Shell.Builtin
import Runbook.Shell.Redirection

/-!
Simple commands: words are expanded, assignments in front hold for the command, and the first word
says whether a function, a command of the shell or a program runs.
-/
namespace Runbook.Shell
open Redirection Engine ShellM Kernel

variable (e : Engine)

namespace Simple

def splitWords (d : Dialect) : List Text → List AssignWord × List Text
  | [] => ([], [])
  | t :: rest =>
    if Lexeme.isAssignment t then
      match AssignWord.ofText? d t with
      | some w =>
        let (ws, words) := splitWords d rest
        (w :: ws, words)
      | none => ([], t :: rest)
    else ([], t :: rest)

def keepsAssignments (t : Text) : Bool := Builtin.declares t || t = "alias"

def declaresIn : List Text → Bool
  | [] => false
  | t :: rest =>
    if t = "command" ∨ t = "builtin" then declaresIn rest
    else keepsAssignments t

def optionLetters (words : List Text) : Text :=
  (words.filter fun t => t.head? = some '-').flatMap (·.drop 1)

/-! Expansion of words. -/

def expandArgument (letters : Text) (t : Text) : ShellM (List Argument) := do
  let x := substituter e
  let s ← get
  let plain : ShellM (List Argument) := do return (← Fields.ofWord x t).map .text
  if Lexeme.isAssignment t then
    match AssignWord.ofText? s.dialect t with
    | some w =>
      if w.isList ∧ w.subscript.isNone then
        let isKeyed := 'A' ∈ letters || Assignment.isKeyedList s (s.follow w.name)
        let ms ← Assignment.expandMembers e isKeyed w.value
        Trace.line e (w.name ++ w.sign ++ Assignment.membersText ms)
        return [.list w.name w.appends ms]
      else
        let head ← Expansion.singleText x w.target
        let value ← Expansion.assignedText x w.value
        return [.text (head ++ w.sign ++ value)]
    | none => plain
  else plain

def expandWords (words : List Text) : ShellM (List Argument) := do
  if declaresIn words then
    concat (expandArgument e (optionLetters words)) words
  else
    return (← Fields.ofWords (substituter e) words).map .text

/-! Functions. -/

def hiddenTraps (s : State) (f : Function) : Traps :=
  s.traps.filter fun (o, _) =>
    match o with
    | .before | .returning => !(s.isOn .functrace || f.traced)
    | .error => !s.isOn .errtrace
    | _ => false

def nestingLimit? (s : State) : Option Nat :=
  (s.text? "FUNCNEST").bind fun t =>
    if t ≠ [] ∧ t.all Char.isDigit ∧ 0 < State.decimal t then some (State.decimal t) else none

def keptSettings? (scope : Scope) : Option (List Setting) :=
  (scope.bindings.lookup ['-']).map fun v =>
    ((v.value.text?.getD []).splitOn ',').filterMap Setting.ofName?

def callFunction (name : Text) (f : Function) (args : List Text)
    (temporary : List (Text × Variable)) : ShellM Unit := do
  let s ← get
  let depth := (s.frames.filter (·.isFunction)).length
  match nestingLimit? s with
  | some limit =>
    if limit ≤ depth then
      giveUp 1 (name ++ ": maximum function nesting level exceeded (" ++ Text.ofNat limit ++ ")")
  | none => pure ()
  let hidden := hiddenTraps s f
  set { s with
    scopes := { isFunction := true } :: { bindings := temporary } :: s.scopes
    arguments := args
    frames := ⟨name, s.line, f.file, true⟩ :: s.frames
    traps := s.traps.filter fun t => !(hidden.any (·.1 = t.1))
    loops := 0
    line := f.base
    label := [] }
  let r ← attempt (do
    runBefore e
    e.run f.body)
  match r with
  | .ok () | .error .leaveFunction =>
    let r2 ← attempt (runReturning e)
    match r2 with
    | .ok () | .error .leaveFunction => pure ()
    | .error j => jump j
  | _ => pure ()
  modify fun now =>
    let own := now.scopes.head?
    let restored := hidden.filter fun t => !(now.traps.any (·.1 = t.1))
    { now with
      scopes := now.scopes.drop (now.scopes.length - s.scopes.length)
      arguments := s.arguments
      frames := s.frames
      traps := now.traps ++ restored
      loops := s.loops
      line := s.line
      errorLine := s.errorLine
      settings := (own.bind keptSettings?).getD now.settings }
  match r with
  | .error .leaveFunction => return ()
  | r => resume r

/-! Programs. -/

def notFound (words : List Text) : ShellM Unit := do
  let s ← get
  match s.function? "command_not_found_handle" with
  | some f => callFunction e "command_not_found_handle" f words []
  | none =>
    let name := words.headD []
    failWith 127 (name ++ ": command not found")

def findFor (temporary : List (Text × Variable)) (name : Text) : ShellM (Option Text) := do
  if temporary.any (·.1 = "PATH") ∨ !(← get).isOn .hashall then findProgram name
  else findHashed name

def becomeProgram (found : Option Text) (words : List Text) (redirects : List Redirect) :
    ShellM Unit := do
  within e redirects fun _ => do
    match found with
    | none => notFound e words
    | some path =>
      modify fun s => { s with scopes := { bindings := [(['_'], ⟨.one path, { exported := true }⟩)] } :: s.scopes }
      let env ← environment
      execute e path words env

def runProgram (words : List Text) (redirects : List Redirect)
    (temporary : List (Text × Variable)) (text : Text) : ShellM Unit := do
  let found ← findFor temporary (words.headD [])
  let child ← fork (do
    becomeSubshell false false
    modify fun s => { s with isSubshell := true }
    let _ ← attempt (becomeProgram e found words redirects))
  let status ← Jobs.waitForeground child text
  setStatus status

/-! Commands. -/

def withTemporary (temporary : List (Text × Variable)) (m : ShellM Unit) : ShellM Unit := do
  if temporary = [] then m
  else
    let height := (← get).scopes.length
    modify fun s => { s with scopes := { bindings := temporary } :: s.scopes }
    after m (modify fun s => { s with scopes := s.scopes.drop (s.scopes.length - height) })

def runBuiltin (name : Text) (args : List Argument) : ShellM Unit := do
  let old := (← get).label
  modify fun s => { s with label := name }
  let m : ShellM Unit :=
    if Builtin.declares name then Builtin.runDeclaring e name args
    else
      match Builtin.run? name with
      | some run => run e (args.map Argument.word)
      | none => setStatus 127
  after m (modify fun s => { s with label := old })

inductive Target where
  | function (f : Function)
  | builtin
  | program

def targetOf (s : State) (m : Meaning) (name : Text) : Target :=
  match m, s.function? name with
  | .any, some f => .function f
  | _, _ => if Builtin.isBuiltin s name then .builtin else .program

def runArguments (m : Meaning) (args : List Argument) (redirects : List Redirect)
    (temporary : List (Text × Variable)) (text : Text) : ShellM Unit := do
  let words := args.map Argument.word
  let name := words.headD []
  modify fun s => { s with depth := if s.deepens then s.depth + 1 else s.depth, deepens := false }
  match targetOf (← get) m name with
  | .function f =>
    within e redirects fun changes =>
      after (callFunction e name f (words.drop 1) temporary) (undo changes)
  | .builtin =>
    within e redirects fun changes => do
      let r ← attempt (withTemporary temporary (runBuiltin e name (args.drop 1)))
      if name = "exec" ∧ words.length = 1 then keep changes else undo changes
      resume r
  | .program => withTemporary temporary (runProgram e words redirects temporary text)

def runWords (m : Meaning) (words : List Text) : ShellM Unit :=
  runArguments e m (words.map .text) [] [] ([' '].intercalate words)

def runEmpty (assigned : List AssignWord) (redirects : List Redirect) : ShellM Unit := do
  Assignment.performAll e assigned
  let given := (← get).substituted
  within e redirects fun changes => do
    undo changes
    setStatus (((← get).substituted).getD (given.getD 0))
  put ['_'] []

def closeOpened (before : List Nat) : ShellM Unit := do
  let s ← get
  for fd in s.opened do
    if !(before.contains fd) then closeDescriptor fd
  modify fun s => { s with opened := before }

def run (line : Nat) (words : List Text) (redirects : List Redirect) : ShellM Unit := do
  let text := Command.text (.simple line words redirects)
  modify fun s =>
    { s with
      line := line
      errorLine := line
      label := []
      substituted := none
      commandName := if s.runningTrap then s.commandName else text }
  runBefore e
  let opened := (← get).opened
  let s ← get
  let (assigned, rest) := splitWords s.dialect words
  let m : ShellM Unit := do
    let args ← expandWords e rest
    if args = [] then runEmpty e assigned redirects
    else
      let temporary ← Assignment.forCommand e assigned
      Trace.words e (args.map Argument.word)
      let last := (args.getLast?.map Argument.word).getD []
      runArguments e .any args redirects temporary text
      put ['_'] last
  after m (closeOpened opened)
  modify fun s => { s with pipeStatus := [s.status] }

end Simple

end Runbook.Shell
