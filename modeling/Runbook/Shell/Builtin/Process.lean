import Runbook.Shell.Builtin.Declare
import Runbook.Shell.FileTest
import Runbook.Shell.Jobs

/-!
The commands for signals and traps, for jobs, and for what processes inherit.
-/
namespace Runbook.Shell
open ShellM Kernel

variable (e : Engine)

namespace Builtin

/-! Signals. -/

def signalTable : Text :=
  let cell (entry : (Nat × Text) × Nat) : Text :=
    let ((n, name), i) := entry
    let number := Text.ofNat n
    List.replicate (2 - number.length) ' ' ++ number ++ ") SIG" ++ name ++ [if i % 5 = 4 then '\n' else '\t']
  let text := (Signal.all.zipIdx).flatMap cell
  if Signal.all.length % 5 = 0 then text else text ++ ['\n']

def signalOf? (t : Text) : Option Nat :=
  if t ≠ [] ∧ t.all Char.isDigit then
    let n := State.decimal t
    if n = 0 ∨ (Signal.name? n).isSome then some n else none
  else Signal.number? t

def listSignals (args : List Text) : ShellM Unit := do
  if args = [] then writeOut "kill" signalTable
  else
    setStatus 0
    for t in args do
      let invalid : ShellM Unit := do
        complain "kill" (t ++ ": invalid signal specification")
        setStatus 1
      if t ≠ [] ∧ t.all Char.isDigit then
        let n := State.decimal t
        let n := if 128 < n then n - 128 else n
        if n = 0 then
          let _ ← write 1 "EXIT\n"
        else
          match Signal.name? n with
          | some name =>
            let _ ← write 1 (name ++ ['\n'])
          | none => invalid
      else
        match Signal.number? t with
        | some n =>
          let _ ← write 1 (Text.ofNat n ++ ['\n'])
        | none => if t.map Char.toUpper = "EXIT" then (do let _ ← write 1 "0\n") else invalid

structure KillOptions where
  lists : Bool := false
  signal : Option Nat := some Kernel.Signal.terminate
  spec : Text := "TERM"
  isGiven : Bool := false
  missing : Option Text := none

def killOptions : KillOptions → List Text → KillOptions × List Text
  | o, [] => (o, [])
  | o, t :: rest =>
    let given (spec : Text) : KillOptions := { o with signal := signalOf? spec, spec := spec, isGiven := true }
    match t with
    | ['-', 'l'] | ['-', 'L'] => killOptions { o with lists := true } rest
    | ['-', '-'] => (o, rest)
    | ['-', 's'] | ['-', 'n'] =>
      match rest with
      | spec :: more => killOptions (given spec) more
      | [] => ({ o with missing := some t }, [])
    | '-' :: 's' :: c :: more =>
      if c.isAlpha then killOptions (given (c :: more)) rest
      else if o.isGiven then (o, t :: rest) else killOptions (given ('s' :: c :: more)) rest
    | '-' :: 'n' :: c :: more =>
      if c.isDigit then killOptions (given (c :: more)) rest
      else if o.isGiven then (o, t :: rest) else killOptions (given ('n' :: c :: more)) rest
    | '-' :: c :: more => if o.isGiven then (o, t :: rest) else killOptions (given (c :: more)) rest
    | _ => (o, t :: rest)

def killOne (signal : Nat) (t : Text) : ShellM Bool := do
  let refuse (m : Text) : ShellM Bool := do
    complain "kill" m
    return false
  match FileTest.integer? t with
  | some n =>
    match ← call fun pid => Sys.kill pid n signal with
    | .ok () => return true
    | .error f => refuse ('(' :: Text.ofInt n ++ ") - " ++ f.message)
  | none =>
    match t with
    | '%' :: spec =>
      Engine.collect
      match Jobs.ofText? (← get) spec with
      | none => refuse (t ++ ": no such job")
      | some j =>
        for pid in j.pids do
          tell fun own => Sys.kill own pid signal
        return true
    | _ => refuse (t ++ ": arguments must be process or job IDs")

def kill : Run := fun _ args =>
  let (o, operands) := killOptions {} args
  match o.missing with
  | some t => do
    complain "kill" (t ++ ": option requires an argument")
    setStatus 1
  | none =>
    if args = [] then showUsage "kill"
    else if o.lists then listSignals operands
    else
      match o.signal with
      | none => do
        complain "kill" (o.spec ++ ": invalid signal specification")
        setStatus 1
      | some signal =>
        if operands = [] then showUsage "kill"
        else do
          let results ← each (killOne signal) operands
          finish (results.any id)

/-! Traps. -/

def occasionOf? (t : Text) : Option Occasion :=
  match String.ofList (t.map Char.toUpper) with
  | "EXIT" | "0" => some .leaving
  | "DEBUG" => some .before
  | "ERR" => some .error
  | "RETURN" => some .returning
  | _ => (signalOf? t).map .signal

def occasionName : Occasion → Text
  | .leaving => "EXIT"
  | .before => "DEBUG"
  | .error => "ERR"
  | .returning => "RETURN"
  | .signal n => "SIG" ++ (Signal.name? n).getD (Text.ofNat n)

def occasionRank : Occasion → Nat
  | .leaving => 0
  | .signal n => n
  | .before => 1000
  | .error => 1001
  | .returning => 1002

def trapLine (o : Occasion) (t : Text) : Text := "trap -- " ++ singleQuoted t ++ ' ' :: occasionName o ++ ['\n']
where
  singleQuoted (t : Text) : Text := if t = [] then "''" else singleQuote t

def dispositionFor (traps : Traps) (n : Nat) : Disposition :=
  match traps.lookup (.signal n) with
  | some [] => .ignored
  | some _ => .caught
  | none => if (traps.lookup .leaving).any (· ≠ []) ∧ Engine.isTerminating n then .caught else .usual

def changeTrap (o : Occasion) (t : Option Text) : ShellM Unit := do
  let s ← get
  let isFixed : Bool :=
    match o with
    | .signal n => n ∈ s.ignoredAtStart
    | _ => false
  if !isFixed then
    modify fun s =>
      let others := s.traps.filter (·.1 ≠ o)
      { s with traps := t.elim others fun t => (o, t) :: others, inheritedTraps := [] }
    let traps := (← get).traps
    match o with
    | .signal n => tell fun pid => Sys.dispose pid n (dispositionFor traps n)
    | .leaving =>
      for n in Engine.terminating do
        if n ∉ s.ignoredAtStart then tell fun pid => Sys.dispose pid n (dispositionFor traps n)
    | _ => pure ()

def shownTraps (s : State) : Traps :=
  let all := if s.inheritedTraps ≠ [] then s.inheritedTraps else s.traps
  all.mergeSort fun a b => occasionRank a.1 ≤ occasionRank b.1

def changeTraps (t : Option Text) (specs : List Text) : ShellM Unit := do
  setStatus 0
  for spec in specs do
    match occasionOf? spec with
    | some o => changeTrap o t
    | none =>
      complain "trap" (spec ++ ": invalid signal specification")
      setStatus 1

def trap : Run := fun _ args =>
  withOptions "trap" { plain := "lp" } args fun os operands => do
    let s ← get
    if has os 'l' then writeOut "trap" signalTable
    else if operands = [] then writeOut "trap" ((shownTraps s).flatMap fun (o, t) => trapLine o t)
    else if has os 'p' then
      setStatus 0
      for spec in operands do
        match occasionOf? spec with
        | some o =>
          match (shownTraps s).lookup o with
          | some t =>
            let _ ← write 1 (trapLine o t)
          | none => pure ()
        | none =>
          complain "trap" (spec ++ ": invalid signal specification")
          setStatus 1
    else
      match operands with
      | [] => setStatus 0
      | first :: rest =>
        let isNumber := first ≠ [] && first.all Char.isDigit && (occasionOf? first).isSome
        let isOnly := rest = [] && first ≠ [] && first ≠ ['-'] && (occasionOf? first).isSome
        if isNumber ∨ isOnly then changeTraps none operands
        else if rest = [] then showUsage "trap"
        else if first = ['-'] then changeTraps none rest
        else changeTraps (some first) rest

/-! Jobs. -/

def jobOf (cmd : Text) (status : Nat) (t : Text) : ShellM (Option Job) := do
  let spec := if t.head? = some '%' then t.drop 1 else t
  match Jobs.ofText? (← get) spec with
  | some j => return some j
  | none =>
    complain cmd (t ++ ": no such job")
    setStatus status
    return none

def jobs : Run := fun e args =>
  withOptions "jobs" { plain := "lnprsx" } args fun os operands => do
    if has os 'x' then e.runWords .any operands
    else
      Engine.collect
      let s ← get
      setStatus 0
      let chosen ←
        if operands = [] then pure s.jobs
        else
          concat (fun t => do
            match ← jobOf "jobs" 1 t with
            | some j => return [j]
            | none => return []) operands
      let chosen := chosen.filter fun j =>
        (!has os 'r' || j.state = .running) && !has os 's'
      let text := chosen.flatMap fun j =>
        if has os 'p' then Text.ofNat (j.pids.headD 0) ++ ['\n'] else Jobs.line s (has os 'l') j
      let _ ← write 1 text
      if !has os 'p' then
        modify fun s =>
          { s with jobs := s.jobs.filter fun j => j.state = .running || !(chosen.any (·.number = j.number)) }

def waitEach (shows : Bool) : List Nat → ShellM (Option Nat)
  | [] => return none
  | pid :: rest => do
    match ← Jobs.waitAny [pid] with
    | .ended _ ending => do
      setStatus ending.status
      if shows then Jobs.notify
      waitEach shows rest
    | .interrupted n => return some n
    | .nothing => waitEach shows rest

def interrupted (n : Nat) : ShellM Unit := do
  setStatus (128 + n)
  Engine.runPending e

def waitAll : ShellM Unit := do
  let s ← get
  let running := (s.jobs.filter fun j => j.state = .running).flatMap (·.pids)
  let others := s.background.toList.filter fun pid => !(running.contains pid)
  match ← waitEach true (running ++ others) with
  | some n => interrupted e n
  | none =>
    modify fun s => { s with jobs := s.jobs.filter fun j => j.state = .running }
    setStatus 0

def waitOne (holder? : Option Text) (t : Text) : ShellM Bool := do
  let s ← get
  let finishWait (pids : List Nat) (number : Option Nat) : ShellM Bool := do
    match holder? with
    | some name =>
      let _ ← assign name (Text.ofNat (pids.getLastD 0))
    | none => pure ()
    match ← waitEach true pids with
    | some n =>
      interrupted e n
      return false
    | none =>
      match number with
      | some n => Jobs.forget n
      | none => pure ()
      return true
  match t with
  | '%' :: _ =>
    match ← jobOf "wait" 127 t with
    | some j => finishWait j.pids (some j.number)
    | none => return true
  | _ =>
    if t ≠ [] ∧ t.all Char.isDigit then
      let pid := State.decimal t
      if Jobs.isKnown s pid ∨ s.background = some pid then
        finishWait [pid] ((s.jobs.find? fun j => j.pids.getLast? = some pid).map (·.number))
      else
        complain "wait" ("pid " ++ t ++ " is not a child of this shell")
        setStatus 127
        return true
    else
      complain "wait" ("\x60" ++ t ++ "': not a pid or valid job spec")
      setStatus 1
      return true

def waitArguments (holder? : Option Text) : List Text → ShellM Unit
  | [] => return ()
  | t :: rest => do
    if ← waitOne e holder? t then waitArguments holder? rest else return ()

def waitNext (holder? : Option Text) (operands : List Text) : ShellM Unit := do
  Engine.collect
  let s ← get
  let chosen := s.jobs.filter fun j =>
    operands = [] || operands.any fun t =>
      (t.all Char.isDigit && j.pids.contains (State.decimal t)) ||
        (t.head? = some '%' && (Jobs.ofText? s (t.drop 1)).any (·.number = j.number))
  let finished (j : Job) (ending : Ending) : ShellM Unit := do
    match holder? with
    | some name =>
      let _ ← assign name (Text.ofNat (j.pids.getLastD 0))
    | none => pure ()
    Jobs.forget j.number
    setStatus ending.status
  match chosen.findSome? fun j => match j.state with | .ended e => some (j, e) | .running => none with
  | some (j, ending) => finished j ending
  | none =>
    match ← Jobs.waitAny (chosen.filterMap (·.pids.getLast?)) with
    | .ended pid ending =>
      match chosen.find? fun j => j.pids.getLast? = some pid with
      | some j => finished j ending
      | none => setStatus ending.status
    | .interrupted n => interrupted e n
    | .nothing => setStatus 127

def wait : Run := fun e args =>
  withOptions "wait" { plain := "fn", valued := "p" } args fun os operands => do
    match value? os 'p' with
    | some name => modify fun s => s.erase name
    | none => pure ()
    if has os 'n' then waitNext e (value? os 'p') operands
    else if operands = [] then waitAll e
    else
      setStatus 0
      waitArguments e (value? os 'p') operands

def disown : Run := fun _ args =>
  withOptions "disown" { plain := "ahr" } args fun os operands => do
    let s ← get
    setStatus 0
    if has os 'a' ∨ (has os 'r' ∧ operands = []) then
      modify fun s => { s with jobs := s.jobs.filter fun j => has os 'r' && j.state ≠ .running }
    else if operands = [] then
      match Jobs.current? s with
      | some j => if !has os 'h' then Jobs.forget j.number
      | none =>
        complain "disown" "current: no such job"
        setStatus 1
    else
      for t in operands do
        let byPid := if t.all Char.isDigit then s.jobs.find? fun j => j.pids.contains (State.decimal t) else none
        match byPid with
        | some j => if !has os 'h' then Jobs.forget j.number
        | none =>
          match ← jobOf "disown" 1 t with
          | some j => if !has os 'h' then Jobs.forget j.number
          | none => pure ()

def noJobControl (cmd : Text) : Run := fun _ _ => do
  complain cmd "no job control"
  setStatus 1

def suspend : Run := fun _ _ => do
  complain "suspend" "cannot suspend: no job control"
  setStatus 1

/-! What processes inherit. -/

def octal (width n : Nat) : Text :=
  let ds := Nat.toDigits 8 n
  List.replicate (width - ds.length) '0' ++ ds

def symbolicMask (mask : Nat) : Text :=
  let part (who : Char) (bits : Nat) : Text :=
    who :: '=' :: (if bits &&& 4 = 0 then ['r'] else []) ++ (if bits &&& 2 = 0 then ['w'] else []) ++
      (if bits &&& 1 = 0 then ['x'] else [])
  [','].intercalate [part 'u' (mask / 64 % 8), part 'g' (mask / 8 % 8), part 'o' (mask % 8)]

def permissionBits (ls : Text) : Option Nat :=
  ls.foldl (fun n c =>
    n.bind fun n =>
      match c with
      | 'r' => some (n ||| 4)
      | 'w' => some (n ||| 2)
      | 'x' => some (n ||| 1)
      | _ => none) (some 0)

def maskClause (allowed : Nat) (clause : Text) : Except Text Nat :=
  let who := clause.takeWhile fun c => c ∈ ("ugoa" : Text)
  match clause.drop who.length with
  | [] => .error "\x60\x00': invalid symbolic mode operator"
  | sign :: ls =>
    if sign ≠ '+' ∧ sign ≠ '-' ∧ sign ≠ '=' then
      .error ("\x60" ++ sign :: "': invalid symbolic mode operator")
    else
      match permissionBits ls with
      | none =>
        let bad := (ls.find? fun c => c ∉ ("rwx" : Text)).getD ' '
        .error ("\x60" ++ bad :: "': invalid symbolic mode character")
      | some bits =>
        let everyone := who = [] || 'a' ∈ who
        let spread (c : Char) (n : Nat) : Nat := if everyone ∨ c ∈ who then bits * n else 0
        let reach (c : Char) (n : Nat) : Nat := if everyone ∨ c ∈ who then 7 * n else 0
        let given := spread 'u' 64 + spread 'g' 8 + spread 'o' 1
        let range := reach 'u' 64 + reach 'g' 8 + reach 'o' 1
        .ok (match sign with
          | '+' => allowed ||| given
          | '-' => allowed &&& (0o777 ^^^ given)
          | _ => (allowed &&& (0o777 ^^^ range)) ||| given)

def maskClauses : Nat → List Text → Except Text Nat
  | allowed, [] => .ok allowed
  | allowed, c :: rest =>
    match maskClause allowed c with
    | .ok allowed => maskClauses allowed rest
    | .error t => .error t

def umask : Run := fun _ args =>
  withOptions "umask" { plain := "pS" } args fun os operands => do
    let mask := (← call fun pid => do return (← Sys.process pid).umask).toOption.getD 0o022
    let refuse (t : Text) : ShellM Unit := do
      complain "umask" t
      setStatus 1
    let change (n : Nat) : ShellM Unit := do
      tell fun pid => Sys.modifyProcess pid fun p => { p with umask := n &&& 0o777 }
      if has os 'S' then writeOut "umask" (symbolicMask n ++ ['\n']) else setStatus 0
    match operands with
    | [] =>
      let shown := if has os 'S' then symbolicMask mask else octal 4 mask
      let lead : Text := if has os 'p' then (if has os 'S' then "umask -S " else "umask ").toList else []
      writeOut "umask" (lead ++ shown ++ ['\n'])
    | t :: _ =>
      if t.head?.any Char.isDigit then
        if t.all isOctalDigit ∧ valueOf 8 t ≤ 0o7777 then change (valueOf 8 t)
        else refuse (t ++ ": octal number out of range")
      else
        match maskClauses (0o777 ^^^ mask) (t.splitOn ',') with
        | .ok allowed => change (0o777 ^^^ allowed)
        | .error m => refuse m

def usualLimit : Char → Text
  | 'n' => "1048576"
  | 'c' => "0"
  | 's' => "8192"
  | 'p' => "8"
  | _ => "unlimited"

def ulimit : Run := fun _ args =>
  withOptions "ulimit" { plain := "SHabcdefiklmnpqrstuvxPRT" } args fun os operands => do
    let resource := ((os.filter fun o => o.letter ≠ 'S' && o.letter ≠ 'H').getLast?.map (·.letter)).getD 'f'
    let s ← get
    let shown := (s.limits.lookup resource).getD (usualLimit resource)
    match operands with
    | [] => writeOut "ulimit" (shown ++ ['\n'])
    | t :: _ =>
      let isWord := t = "hard" ∨ t = "soft"
      if !isWord ∧ t ≠ "unlimited" ∧ !(t.all Char.isDigit && t ≠ []) then
        complain "ulimit" (t ++ ": invalid number")
        setStatus 1
      else
        let value := if isWord then shown else t
        modify fun s => { s with limits := (resource, value) :: s.limits.filter (·.1 ≠ resource) }
        setStatus 0

def times : Run := fun _ _ => writeOut "times" "0m0.000s 0m0.000s\n0m0.000s 0m0.000s\n"

end Builtin

end Runbook.Shell
