import Runbook.Shell.Conditional
import Runbook.Shell.Simple

/-!
Running commands that hold others: lists, pipelines, branches, loops and subshells.
-/
namespace Runbook.Shell
open Engine ShellM Kernel

variable (e : Engine)

namespace Execution

/-! Failure. -/

def check : ShellM Unit := do
  let s ← get
  if s.status ≠ 0 ∧ !s.ignoresErrors then
    runError e
    if (← get).isOn .errexit then jump .leaveShell

def ignoring (m : ShellM Unit) : ShellM Unit := do
  let old := (← get).ignoresErrors
  modify fun s => { s with ignoresErrors := true }
  after m (modify fun s => { s with ignoresErrors := old })

def announce (line : Nat) (text : Text) : ShellM Unit := do
  modify fun s =>
    { s with
      line := line
      label := []
      commandName := if s.runningTrap then s.commandName else text }
  runBefore e

def keepingLine {α : Type} (m : ShellM α) : ShellM α := do
  let line := (← get).line
  after m (modify fun s => { s with line := line })

def statusToPipe : ShellM Unit := modify fun s => { s with pipeStatus := [s.status] }

/-! Processes. -/

def element (c : Command) : ShellM Unit := do
  match c with
  | .simple line words redirects => Simple.run e line words redirects
  | .subshell line body =>
    modify fun s => { s with line := line }
    e.run body
  | .redirected (.subshell line body) redirects =>
    modify fun s => { s with line := line }
    Redirection.within e redirects fun _ => e.run body
  | c => e.run c

def isSimple (c : Command) : Bool := c matches .simple ..

def showsJobs : Command → Bool
  | .simple _ (w :: _) _ => w = "jobs"
  | _ => false

def subshellLine? : Command → Option Nat
  | .subshell line _ | .redirected (.subshell line _) _ => some line
  | _ => none

def runSubshell (text : Text) (line : Nat) (redirects : List Redirect) (body : Command) :
    ShellM Unit := do
  modify fun s =>
    { s with commandName := if s.runningTrap then s.commandName else text }
  let child ← forkSubshell e true do
    modify fun s => { s with loops := 0, line := line }
    Redirection.within e redirects fun _ => e.run body
  let status ← Jobs.waitForeground child text
  modify fun s => { s with errorLine := line, status := status, pipeStatus := [status] }
  check e

def runBackground (c : Command) : ShellM Unit := do
  let text := c.text
  let child ← forkSubshell e true do
    tell fun pid => do
      Sys.dispose pid Kernel.Signal.interrupt .ignored
      Sys.dispose pid Signal.quit .ignored
      let id ← Sys.openPath pid "/dev/null" .forReading 0
      Sys.install pid 0 id false
    modify fun s => { s with loops := 0, ignoresErrors := false, isLevel := c matches .pipe .. }
    element e c
  Jobs.add [child] text
  modify fun s => { s with background := some child, status := 0 }

/-! Pipelines. -/

def stages : Command → List Command
  | .pipe a b => a :: stages b
  | c => [c]

/-- Starts the commands of a pipeline that stands on a line; `input` is where the next one reads. -/
def startStages (base : Nat) : Option Nat → List Command → ShellM (List Nat × Option Nat)
  | input, [] => return ([], input)
  | input, c :: rest => do
    let isLast := rest = [] || rest.isEmpty
    match c with
    | .simple line words redirects =>
      modify fun s =>
        { s with
          line := line
          errorLine := line
          commandName := if s.runningTrap then s.commandName else Command.text (.simple line words redirects) }
    | c => modify fun s => { s with line := base, errorLine := (subshellLine? c).getD s.errorLine }
    let s ← get
    if isLast ∧ s.does "lastpipe" then return ([], input)
    else
      let ends ← if isLast then pure none else
        let (r, w) ← openPipe 3
        pure (some (r, w))
      let start := if showsJobs c then forkWithJobs else forkSubshell
      let child ← start e (!isSimple c && !s.isLevel) do
        match input with
        | some fd => moveDescriptor fd 0
        | none => pure ()
        match ends with
        | some (r, w) =>
          closeDescriptor r
          moveDescriptor w 1
        | none => pure ()
        modify fun s => { s with loops := 0, deepens := isSimple c && !s.isLevel, isLevel := false }
        element e c
      match input with
      | some fd => closeDescriptor fd
      | none => pure ()
      match ends with
      | some (_, w) => closeDescriptor w
      | none => pure ()
      let (others, left) ← startStages base (ends.map (·.1)) rest
      return (child :: others, left)

def pipelineStatus (s : State) (statuses : List Nat) : Nat :=
  let last := statuses.getLastD 0
  if s.isOn .pipefail then (statuses.reverse.find? (· ≠ 0)).getD 0 else last

def waitStages (text : Text) : List Nat → ShellM (List Nat)
  | [] => return []
  | [pid] => do return [← Jobs.waitForeground pid text]
  | pid :: rest => do
    let ending ← waitFor pid
    let others ← waitStages text rest
    return ending.status :: others

def runPipeline (c : Command) : ShellM Unit := do
  let cs := stages c
  let line := (← get).line
  let (pids, left) ← startStages e line none cs
  let ownStatus ←
    match left, cs.getLast? with
    | some fd, some last =>
      let old ← Redirection.save 0
      moveDescriptor fd 0
      let r ← attempt (e.run last)
      Redirection.undo [old]
      resume r
      pure (some (← get).status)
    | _, _ => pure none
  let statuses ← waitStages c.text pids
  let statuses := statuses ++ ownStatus.toList
  modify fun s =>
    { s with
      line := line
      pipeStatus := statuses
      status := statuses.getLastD 0 }
  if ((cs.getLast?).bind subshellLine?).isSome then check e
  modify fun s => { s with status := pipelineStatus s statuses }
  check e

/-! Loops. -/

inductive Round where
  | onward
  | leave

def round (m : ShellM Unit) : ShellM Round := do
  modify fun s => { s with loops := s.loops + 1 }
  let r ← attempt m
  modify fun s => { s with loops := s.loops - 1 }
  match r with
  | .ok () => return .onward
  | .error (.leaveLoop n) => if n ≤ 1 then return .leave else jump (.leaveLoop (n - 1))
  | .error (.nextRound n) => if n ≤ 1 then return .onward else jump (.nextRound (n - 1))
  | .error j => jump j

def roundLimit : Nat := 1000000000

/-- Runs a loop with a condition. `last` is the status of the last round. -/
def loopFrom (isUntil : Bool) (test body : Command) : Nat → Nat → ShellM Unit
  | 0, last => setStatus last
  | fuel + 1, last => do
    modify fun s => { s with loops := s.loops + 1 }
    let r ← attempt (ignoring (e.run test))
    modify fun s => { s with loops := s.loops - 1 }
    match r with
    | .error (.leaveLoop n) => if n ≤ 1 then return () else jump (.leaveLoop (n - 1))
    | .error (.nextRound n) => if n ≤ 1 then loopFrom isUntil test body fuel last else jump (.nextRound (n - 1))
    | .error j => jump j
    | .ok () =>
      let holds := ((← get).status = 0) != isUntil
      if !holds then setStatus last
      else
        match ← round (e.run body) with
        | .leave => return ()
        | .onward => loopFrom isUntil test body fuel (← get).status

def assignLoop (name t : Text) : ShellM Bool := do
  let s ← get
  let target := s.find? name
  if (target.map (·.attributes.reference)).getD false then
    match s.setText name t with
    | .ok s =>
      set s
      return true
    | .error r =>
      report r.message
      setStatus 1
      return false
  else
    match ← assign name t with
    | .ok () => return true
    | .error r =>
      report r.message
      setStatus 1
      return false

def eachWord (line : Nat) (name head : Text) (body : Command) : List Text → ShellM Unit
  | [] => return ()
  | t :: rest => do
    announce e line head
    Trace.line e head
    if ← assignLoop name t then
      match ← round (e.run body) with
      | .leave => return ()
      | .onward => eachWord line name head body rest

def loopHead (keyword name : Text) (words : Option (List Text)) : Text :=
  keyword ++ ' ' :: name ++ " in " ++ [' '].intercalate (words.getD ["\"$@\""])

def loopWords (words : Option (List Text)) : ShellM (List Text) := do
  match words with
  | some ws => Fields.ofWords (substituter e) ws
  | none => return (← get).arguments

def refuseName (name : Text) : ShellM Unit := do
  report ("\x60" ++ name ++ "': not a valid identifier")
  setStatus 1

def runEach (line : Nat) (name : Text) (words : Option (List Text)) (body : Command) :
    ShellM Unit := do
  if !isIdentifier name then refuseName name
  else
    keepingLine do
      modify fun s => { s with line := line }
      let ws ← loopWords e words
      setStatus 0
      eachWord e line name (loopHead "for" name words) body ws

def countStep (line : Nat) (t : Text) : ShellM (Option Int) :=
  keepingLine do
    let shown := if t = [] then ['1'] else t
    announce e line ("((" ++ shown ++ "))")
    let expression ← Expansion.expressionText (substituter e) shown
    Trace.line e ("(( " ++ expression ++ " ))")
    tryEvaluate "((" expression

def countFrom (line : Nat) (test step : Text) (body : Command) : Nat → ShellM Unit
  | 0 => return ()
  | fuel + 1 => do
    let last := (← get).status
    match ← countStep e line test with
    | none => setStatus 1
    | some n =>
      if n = 0 then setStatus last
      else do
        setStatus last
        match ← round (e.run body) with
        | .leave => return ()
        | .onward =>
          if step = [] then countFrom line test step body fuel
          else
            let last := (← get).status
            match ← countStep e line step with
            | none => setStatus 1
            | some _ =>
              setStatus last
              countFrom line test step body fuel

def runCount (line : Nat) (start test step : Text) (body : Command) : ShellM Unit := do
  setStatus 0
  match ← countStep e line start with
  | none => setStatus 1
  | some _ => countFrom e line test step body roundLimit

/-! Menus. -/

def indent : Nat → Nat → Nat → Text
  | 0, _, _ => []
  | fuel + 1, start, stop =>
    if stop ≤ start then []
    else if start / 8 < stop / 8 then '\t' :: indent fuel (start + 8 - start % 8) stop
    else ' ' :: indent fuel (start + 1) stop

def menuText (width : Nat) (ws : List Text) : Text :=
  let count := ws.length
  let digits (n : Nat) : Nat := (Text.ofNat n).length
  let widest := (ws.map List.length).foldl max 0 + digits count + 2 + 2
  let columns := max 1 (width / widest)
  let rows := count / columns + (if count % columns = 0 then 0 else 1)
  let columns := count / rows + (if count % rows = 0 then 0 else 1)
  let (rows, columns) := if rows = 1 then (columns, 1) else (rows, columns)
  let cell (row column : Nat) : Text :=
    let i := row + column * rows
    let numberWidth := if column = 0 then digits rows else digits count
    let number := Text.ofNat (i + 1)
    let shown := List.replicate (numberWidth - number.length) ' ' ++ number ++ ") " ++ ws.getD i []
    let start := column * widest
    let isLast := count ≤ i + rows
    shown ++ (if isLast then [] else indent 200 (start + shown.length) (start + widest))
  let line (row : Nat) : Text :=
    ((List.range columns).filter fun c => row + c * rows < count).flatMap (cell row) ++ ['\n']
  if ws = [] then ['\n'] else (List.range rows).flatMap line

def menuFrom (name : Text) (ws : List Text) (body : Command) : Nat → Bool → ShellM Unit
  | 0, _ => return ()
  | fuel + 1, shows => do
    let s ← get
    let width := ((s.text? "COLUMNS").map State.decimal).getD 80
    if shows then
      let _ ← write 2 (menuText width ws)
    let _ ← write 2 ((s.text? "PS3").getD "#? ")
    Builtin.read e []
    if (← get).status ≠ 0 then
      let _ ← write 1 ['\n']
      setStatus 1
    else
      let reply := (← get).textOf "REPLY"
      if reply = [] then menuFrom name ws body fuel true
      else
        let chosen :=
          match FileTest.integer? reply with
          | some n => if 1 ≤ n ∧ n ≤ ws.length then ws.getD (n.toNat - 1) [] else []
          | none => []
        if ← assignLoop name chosen then
          match ← round (e.run body) with
          | .leave => return ()
          | .onward => menuFrom name ws body fuel ((← get).textOf "REPLY" = [])

def runMenu (line : Nat) (name : Text) (words : Option (List Text)) (body : Command) :
    ShellM Unit := do
  if !isIdentifier name then refuseName name
  else
    keepingLine do
      modify fun s => { s with line := line }
      let ws ← loopWords e words
      announce e line (loopHead "select" name words)
      Trace.line e (loopHead "select" name words)
      setStatus 0
      if ws ≠ [] then menuFrom e name ws body roundLimit true

/-! Choices. -/

def matchesAny (subject : Text) : List Text → ShellM Bool
  | [] => return false
  | p :: rest => do
    let s ← get
    let cs ← Expansion.patternChars (substituter e) p
    if (Pattern.read (s.does "extglob") cs).isMatch ⟨s.does "nocasematch"⟩ subject then return true
    else matchesAny subject rest

/-- Runs the clauses that a subject chooses. `falls` tells that the clause before runs into the next. -/
def runClauses (subject : Text) (falls : Bool) :
    List (List Text × Option Command × ClauseEnd) → ShellM Unit
  | [] => return ()
  | (patterns, body, ending) :: rest => do
    let chosen ← if falls then pure true else matchesAny e subject patterns
    if chosen then
      match body with
      | some c => e.run c
      | none => setStatus 0
      match ending with
      | .leave => return ()
      | .fall => runClauses subject true rest
      | .test => runClauses subject false rest
    else runClauses subject false rest

def runChoice (line : Nat) (subject : Text)
    (clauses : List (List Text × Option Command × ClauseEnd)) : ShellM Unit :=
  keepingLine do
    announce e line ("case " ++ subject ++ " in ")
    Trace.line e ("case " ++ subject ++ " in")
    let t ← Expansion.singleText (substituter e) subject
    setStatus 0
    runClauses e t false clauses

/-! Other commands. -/

def definitionFile (s : State) : Text :=
  match s.frames.head? with
  | some f => f.file
  | none => "environment"

def define (line base : Nat) (name : Text) (body : Command) : ShellM Unit := do
  modify fun s => { s with errorLine := s.line }
  let s ← get
  if name.any fun c => c ∈ ("$'\"\\`<>&;|()" : Text) then refuseName name
  else
    match s.function? name with
    | some f =>
      if f.readonly then
        report (name ++ ": readonly function")
        setStatus 1
      else
        let f := { f with body := body, line := line, base := base, file := definitionFile s }
        set { s with functions := s.functions.map fun (n, old) => if n = name then (n, f) else (n, old) }
        setStatus 0
    | none =>
      let f : Function := { body := body, line := line, base := base, file := definitionFile s }
      set { s with functions := (name, f) :: s.functions }
      setStatus 0
  check e

def runArithmetic (line : Nat) (t : Text) : ShellM Unit := do
  keepingLine do
    announce e line ("((" ++ t ++ "))")
    let expression ← Expansion.expressionText (substituter e) t
    Trace.line e ("(( " ++ expression ++ " ))")
    match ← tryEvaluate "((" expression with
    | some n => setStatus (if n = 0 then 1 else 0)
    | none => setStatus 1
    modify fun s => { s with errorLine := line }
  statusToPipe
  check e

def runCondition (line : Nat) (c : Condition) : ShellM Unit := do
  keepingLine do
    announce e line (Command.text (.condition line c))
    Conditional.run e c
    modify fun s => { s with errorLine := line }
  statusToPipe
  check e

def timeText (millis : Nat) : Text :=
  Text.ofNat (millis / 60000) ++ 'm' :: Text.ofNat (millis % 60000 / 1000) ++ '.' :: padded 3 (millis % 1000) ++ ['s']

def secondsText (millis places : Nat) : Text :=
  let fraction := (padded 3 (millis % 1000)).take places
  Text.ofNat (millis / 1000) ++ (if places = 0 then [] else '.' :: fraction)

def timeReport (millis : Nat) : Nat → Text → Text
  | 0, t => t
  | _, [] => []
  | fuel + 1, '%' :: '%' :: rest => '%' :: timeReport millis fuel rest
  | fuel + 1, '%' :: t =>
    let places := t.takeWhile Char.isDigit
    let count := if places = [] then 3 else min 3 (State.decimal places)
    let t := t.drop places.length
    let (isLong, t) : Bool × Text := match t with | 'l' :: rest => (true, rest) | _ => (false, t)
    match t with
    | [] => ['%']
    | c :: rest =>
      let own (m : Nat) : Text :=
        if isLong then Text.ofNat (m / 60000) ++ 'm' :: secondsText (m % 60000) count ++ ['s'] else secondsText m count
      let shown : Text :=
        if c = 'R' then own millis
        else if c = 'U' ∨ c = 'S' then own 0
        else if c = 'P' then "0.00"
        else ['%', c]
      shown ++ timeReport millis fuel rest
  | fuel + 1, c :: rest => c :: timeReport millis fuel rest

def runTimed (isPosix : Bool) (c : Option Command) : ShellM Unit := do
  let start := (← get).now
  let r ← attempt (match c with
    | some c => e.run c
    | none => setStatus 0)
  let s ← get
  let now := (← call fun _ => do return (← get).clock.millis).toOption.getD start
  let millis := now - start
  let text : Text :=
    if isPosix then "real " ++ secondsText millis 2 ++ "\nuser 0.00\nsys 0.00\n"
    else
      match s.text? "TIMEFORMAT" with
      | some [] => []
      | some t => timeReport millis (t.length + 1) t ++ ['\n']
      | none => "\nreal\t" ++ timeText millis ++ "\nuser\t0m0.000s\nsys\t0m0.000s\n"
  let _ ← write 2 text
  resume r

def runCoprocess (name : Text) (c : Command) : ShellM Unit := do
  let (r, w) ← openPipe 10
  let (r2, w2) ← openPipe 10
  let child ← forkSubshell e true do
    closeDescriptor r
    closeDescriptor w2
    moveDescriptor r2 0
    moveDescriptor w 1
    element e c
  closeDescriptor w
  closeDescriptor r2
  let fds := Elements.ofList [Text.ofNat r, Text.ofNat w2]
  modify fun s => s.put name ⟨.indexed fds, {}⟩
  put (name ++ "_PID") (Text.ofNat child)
  Jobs.add [child] ("coproc " ++ name ++ ' ' :: c.text)
  modify fun s => { s with background := some child, status := 0, coprocesses := (child, name) :: s.coprocesses }

def runItems : List (Command × Separator) → ShellM Unit
  | [] => return ()
  | (c, .ampersand) :: rest => do
    runBackground e c
    runItems rest
  | (c, _) :: rest => do
    e.run c
    runItems rest

def runRedirected (c : Command) (redirects : List Redirect) : ShellM Unit := do
  match c with
  | .subshell line body => runSubshell e (Command.text (.redirected c redirects)) line redirects body
  | c =>
    let opened := (← get).opened
    let line := (← get).line
    match c with
    | .condition own _ | .arithmetic own _ | .count own .. => modify fun s => { s with line := own }
    | _ => pure ()
    let changes? ← Redirection.performFrom e [] redirects
    modify fun s => { s with line := line }
    match changes? with
    | none =>
      setStatus 1
      check e
    | some changes =>
      after (e.run c) do
        Redirection.undo changes
        Simple.closeOpened opened

def runCommand (c : Command) : ShellM Unit := do
  runPending e
  match c with
  | .simple line words redirects =>
    keepingLine (Simple.run e line words redirects)
    check e
  | .list items => runItems e items
  | .both a b =>
    ignoring (e.run a)
    if (← get).status = 0 then e.run b
  | .either a b =>
    ignoring (e.run a)
    if (← get).status ≠ 0 then e.run b
  | .pipe a b => runPipeline e (.pipe a b)
  | .inverted c =>
    ignoring (e.run c)
    modify fun s => { s with status := if s.status = 0 then 1 else 0 }
  | .timed isPosix c => runTimed e isPosix c
  | .group body => e.run body
  | .subshell line body => runSubshell e (Command.text (.subshell line body)) line [] body
  | .branch test yes no =>
    ignoring (e.run test)
    if (← get).status = 0 then e.run yes
    else
      match no with
      | some c => e.run c
      | none => setStatus 0
  | .loop isUntil test body => loopFrom e isUntil test body roundLimit 0
  | .each line name words body => runEach e line name words body
  | .count line start test step body => runCount e line start test step body
  | .menu line name words body => runMenu e line name words body
  | .choose line subject clauses => runChoice e line subject clauses
  | .function line base name body => define e line base name body
  | .condition line c => runCondition e line c
  | .arithmetic line t => runArithmetic e line t
  | .coprocess name c => runCoprocess e name c
  | .redirected c redirects => runRedirected e c redirects

def run (c : Command) : ShellM Unit := do
  if !(← get).isOn .noexec then runCommand e c

end Execution

end Runbook.Shell
