import Runbook.DateText
import Runbook.Program.Lines
import Runbook.Shell.Builtin.Test
import Runbook.Shell.Format

/-!
Programs about processes and what surrounds them: the environment, time, names of the machine and its
users, and running other programs.
-/
namespace Runbook.Program
open Kernel
open Shell (Environment)

variable (l : Launch)

/-! Nothing much. -/

def true_ (_ : Launch) : Proc Unit := done true

def false_ (_ : Launch) : Proc Unit := done false

def yesFrom (block : Text) : Nat → Proc Unit
  | 0 => return ()
  | fuel + 1 => do
    emit l block
    yesFrom block fuel

def yes : Proc Unit := do
  let args := if l.args.head? = some "--" then l.args.drop 1 else l.args
  let line := (if args = [] then ['y'] else [' '].intercalate args) ++ ['\n']
  let block := (List.replicate (max 1 (8192 / line.length)) line).flatten
  yesFrom l block loopLimit
  done true

def echo : Proc Unit := do
  emit l (Shell.echoText false l.args)
  done true

def printfProblem (t : Text) : Text :=
  match Text.cut ": invalid" t with
  | some (subject, _) => cited subject ++ ": expected a numeric value"
  | none => t

def printf : Proc Unit := do
  match (if l.args.head? = some "--".toList then l.args.drop 1 else l.args) with
  | [] => misuse l "missing operand"
  | format :: args =>
    let now := (← Proc.look (·.clock)).millis
    let mut ok := true
    for item in Shell.Format.run ⟨now, now⟩ format args do
      match item with
      | .text t => emit l t
      | .problem t =>
        say l (printfProblem t)
        ok := false
      | .warning t => say l t
      | .count _ => pure ()
    done ok

/-! The environment. -/

def putVariable (env : Environment) (name value : Text) : Environment :=
  if env.any (·.1 = name) then env.map fun (n, v) => if n = name then (n, value) else (n, v)
  else env ++ [(name, value)]

def splitText : Nat → Text → Option Char → Option Text → List Text
  | 0, _, _, _ => []
  | _, [], _, current => current.toList
  | fuel + 1, c :: rest, quote, current =>
    let add (x : Char) : Option Text := some (current.getD [] ++ [x])
    match quote with
    | some q => if c = q then splitText fuel rest none (some (current.getD [])) else splitText fuel rest quote (add c)
    | none =>
      if c = ' ' ∨ c = '\t' ∨ c = '\n' then current.toList ++ splitText fuel rest none none
      else if c = '\'' ∨ c = '"' then splitText fuel rest (some c) (some (current.getD []))
      else if c = '\\' then
        match rest with
        | 'n' :: more => splitText fuel more none (add '\n')
        | 't' :: more => splitText fuel more none (add '\t')
        | d :: more => splitText fuel more none (add d)
        | [] => current.toList
      else splitText fuel rest none (add c)

def envForm : OptionForm :=
  .of "iu:C:0vS:" "ignore-environment=i unset:=u chdir:=C null=0 debug=v split-string:=S"

def splitArguments : List Text → List Text
  | ['-', 'S'] :: t :: rest => splitText (t.length + 1) t none none ++ rest
  | ('-' :: 'S' :: t) :: rest => splitText (t.length + 1) t none none ++ rest
  | args => args

def env : Proc Unit := do
  let g ← leadingOptions { l with args := splitArguments l.args } envForm 125
  let dash := g.operands.head? = some ['-']
  let words := if dash then g.operands.drop 1 else g.operands
  let assigned := words.takeWhile fun (t : Text) => '=' ∈ t
  let command := words.drop assigned.length
  if g.has "0" ∧ command ≠ [] then misuse l "cannot specify --null (-0) with command" 125
  let base : Environment := if g.has "i" ∨ dash then [] else l.env
  let unset := g.options.filterMap fun (k, v) => if k = ['u'] then some v else none
  let base := base.filter fun (n, _) => n ∉ unset
  let all := assigned.foldl (fun env t =>
    match Text.cutAt (· == '=') t with
    | some (n, v) => putVariable env n v
    | none => env) base
  match g.last? "C" with
  | some dir =>
    match ← Proc.call fun pid => Sys.chdir pid dir with
    | .ok () => pure ()
    | .error f => fail l ("cannot change directory to " ++ quoted dir ++ ": " ++ f.message) 125
  | none => pure ()
  match command with
  | [] =>
    emit l (all.flatMap fun (n, v) => n ++ '=' :: v ++ [if g.has "0" then '\x00' else '\n']) 125
    Proc.exit 0
  | name :: _ =>
    match ← replace l command all with
    | .missing => fail l (quoted name ++ ": No such file or directory") 127
    | .denied f => fail l (quoted name ++ ": " ++ f.message) 126

def printenv : Proc Unit := do
  let g ← leadingOptions l (.of "0" "null=0") 2
  let stop := if g.has "0" then '\x00' else '\n'
  if g.operands = [] then
    emit l (l.env.flatMap fun (n, v) => n ++ '=' :: v ++ [stop])
    done true
  else
    let found := g.operands.map fun n => l.env.get? n
    emit l (found.flatMap fun v => (v.map (· ++ [stop])).getD [])
    done (found.all Option.isSome)

/-! The machine and its users. -/

def machineNames : List (Text × Text) :=
  [ (['s'], "Linux"), (['n'], "localhost"), (['r'], "6.1.0"), (['v'], "#1 SMP"), (['m'], "x86_64"), (['p'], "x86_64"),
    (['i'], "x86_64"), (['o'], "GNU/Linux") ]

def uname : Proc Unit := do
  let g ← options l (.of "asnrvmpio"
    ("all=a kernel-name=s nodename=n kernel-release=r kernel-version=v machine=m processor=p " ++
      "hardware-platform=i operating-system=o"))
  match g.operands with
  | t :: _ => misuse l ("extra operand " ++ cited t)
  | [] =>
    let chosen := machineNames.filter fun (k, _) => g.has "a" || g.has k
    let shown := if chosen = [] then ["Linux".toList] else chosen.map (·.2)
    emit l ([' '].intercalate shown ++ ['\n'])
    done true

def saying (t : Text) (l : Launch) : Proc Unit := do
  let g ← options l (.of "" "all ignore:")
  match g.operands with
  | x :: _ => misuse l ("extra operand " ++ cited x)
  | [] =>
    emit l (t ++ ['\n'])
    done true

def id : Proc Unit := do
  let g ← options l (.of "ugGnrza" "user=u group=g groups=G name=n real=r zero=z")
  match g.operands with
  | name :: _ => if name ≠ "root" then fail l (quoted name ++ ": no such user")
  | [] => pure ()
  let one := g.has "u" || g.has "g" || g.has "G"
  if one then emit l (if g.has "n" then "root\n" else "0\n")
  else emit l "uid=0(root) gid=0(root) groups=0(root)\n"
  done true

def tty : Proc Unit := do
  let g ← options l (.of "s" "silent=s quiet=s")
  if !g.has "s" then emit l "not a tty\n"
  done false

def which : Proc Unit := do
  let g ← options l (.of "a" "")
  let path := (l.env.get? "PATH").getD []
  let mut ok := !g.operands.isEmpty
  for name in g.operands do
    let places := if '/' ∈ name then [name] else (path.splitOn ':').map fun d => d ++ '/' :: name
    match (← Proc.call fun pid => locateIn pid places).toOption.getD none with
    | some (found, _) => emit l (found ++ ['\n'])
    | none => ok := false
  done ok

/-! Time. -/

def date : Proc Unit := do
  let g ← options l (.of "d:f:I::r:Rs:u"
    ("date:=d file:=f iso-8601::=I reference:=r rfc-email=R rfc-2822=R rfc-3339: set:=s utc=u universal=u debug " ++
      "resolution"))
  match g.operands with
  | _ :: t :: _ => misuse l ("extra operand " ++ cited t)
  | _ => pure ()
  let now ← Proc.look (·.clock)
  let moment : Instant ←
    match g.last? "d", g.last? "r" with
    | some t, _ =>
      match DateText.parse? now t with
      | some i => pure i
      | none => fail l ("invalid date " ++ cited t)
    | none, some path =>
      match ← statusAt true path with
      | .ok st => pure ⟨st.changed / 1000000⟩
      | .error f => fail l (refused path f)
    | none, none => pure now
  let format : Text ←
    match g.operands.head? with
    | some ('+' :: f) => pure f
    | some t => fail l ("invalid date " ++ cited t)
    | none =>
      match g.lastOf [['I'], ['R'], "rfc-3339"] with
      | some ['R'] => pure "%a, %d %b %Y %H:%M:%S %z"
      | some ['I'] =>
        match (g.last? "I").map String.ofList with
        | some "" | some "date" => pure "%Y-%m-%d"
        | some "hours" => pure "%Y-%m-%dT%H%:z"
        | some "minutes" => pure "%Y-%m-%dT%H:%M%:z"
        | some "seconds" => pure "%Y-%m-%dT%H:%M:%S%:z"
        | some "ns" => pure "%Y-%m-%dT%H:%M:%S,%N%:z"
        | t => misuse l ("invalid argument " ++ cited (t.getD "").toList ++ " for '--iso-8601'")
      | some _ =>
        match (g.last? "rfc-3339").map String.ofList with
        | some "date" => pure "%Y-%m-%d"
        | some "ns" => pure "%Y-%m-%d %H:%M:%S.%N%:z"
        | _ => pure "%Y-%m-%d %H:%M:%S%:z"
      | none => pure "%a %b %e %H:%M:%S %Z %Y"
  emit l (TimeFormat.format moment format ++ ['\n'])
  done true

def interval? (t : Text) : Option Nat :=
  match Fraction.parse 64 t with
  | some (.finite false num den, rest) =>
    let unit : Option Nat :=
      match rest with
      | [] | ['s'] => some 1000
      | ['m'] => some 60000
      | ['h'] => some 3600000
      | ['d'] => some 86400000
      | _ => none
    unit.map fun u => (num * u + den - 1) / den
  | some (.infinite false, []) => some 1000000000000
  | _ => none

def sleep : Proc Unit := do
  let g ← options l (.of "" "")
  if g.operands = [] then misuse l "missing operand"
  let bad := g.operands.filter fun t => (interval? t).isNone
  if bad ≠ [] then
    for t in bad do
      say l ("invalid time interval " ++ cited t)
    let _ ← Proc.write 2 (hint l)
    done false
  Proc.sleep ((g.operands.filterMap interval?).foldl (· + ·) 0)
  done true

/-! Signals. -/

def signalOf? (t : Text) : Option Nat :=
  match natural? t with
  | some n => some n
  | none => Signal.number? t

def kill : Proc Unit := do
  let (signal, targets) : Option Nat × List Text :=
    match l.args with
    | ['-', 's'] :: t :: rest => (signalOf? t, rest)
    | ['-', '-'] :: rest => (some 15, rest)
    | ('-' :: c :: t) :: rest => (signalOf? (c :: t), rest)
    | args => (some 15, args)
  match signal with
  | none => fail l ("invalid argument " ++ (l.args.headD []).drop 1)
  | some n =>
    let mut ok := true
    for t in targets do
      let target : Option Int :=
        match t with
        | '-' :: ds => (natural? ds).map fun n => -(n : Int)
        | ds => (natural? ds).map fun n => (n : Int)
      match target with
      | none =>
        say l ("failed to parse argument: '" ++ t ++ "'")
        ok := false
      | some p =>
        match ← Proc.call fun pid => Sys.kill pid p n with
        | .ok () => pure ()
        | .error f =>
          say l ("(" ++ t ++ "): " ++ f.message)
          ok := false
    done ok

/-! Tests. -/

/-- What is wrong with the arguments of a test; `left` are those that were not read. -/
def testProblem (args left : List Text) : Text :=
  match args with
  | [a, b] =>
    if a.head? = some '-' ∧ a.length = 2 then quoted a ++ ": unary operator expected"
    else "missing argument after " ++ quoted b
  | [a, op, b] =>
    if Shell.FileTest.isNumeric op then
      "invalid integer " ++ quoted (if (Shell.FileTest.integer? a).isSome then b else a)
    else quoted op ++ ": binary operator expected"
  | _ =>
    match left with
    | t :: _ => "extra argument " ++ quoted t
    | [] => "missing argument after " ++ quoted (args.getLast?.getD [])

def testing (args : List Text) : Proc Unit := fun pid _ =>
  let e : Shell.Engine := ⟨fun _ => pure (), fun _ _ => pure (), fun _ _ => pure (), l.become⟩
  let finish (n : Nat) : Action := .finish (.exited n)
  ((Shell.Builtin.Test.holds e args).run ⟨args, none⟩).run
    { pid := pid, mainPid := pid, name := l.name, scopes := [{}] } fun r _ =>
      match r with
      | .ok (.ok (true, r)) => if r.rest.isEmpty || args.length < 4 then finish 0 else finish 2
      | .ok (.ok (false, _)) => finish 1
      | _ => say l (testProblem args (args.drop 1)) pid fun () => finish 2

def test : Proc Unit := testing l l.args

def bracket : Proc Unit := do
  if l.args.getLast? = some [']'] then testing l l.args.dropLast
  else fail l "missing ']'" 2

/-! Running other programs. -/

def awaitChild (child : Nat) : Nat → Sys (Option Ending) := fun own => do
  let ended ← Sys.endedChildren own
  match ended.lookup child with
  | some e =>
    Sys.reap child
    return some e
  | none => return none

def launch (words : List Text) (say_ : Text → Fault → Proc Unit) : Proc Nat :=
  Proc.fork do
    match ← replace l words l.env with
    | .missing =>
      say_ (words.headD []) .notFound
      Proc.exit 127
    | .denied f =>
      say_ (words.headD []) f
      Proc.exit 126

def runRefused (name : Text) (f : Fault) : Proc Unit :=
  say l ("failed to run command " ++ quoted name ++ ": " ++ f.message)

def nice : Proc Unit := do
  let g ← leadingOptions l (.of "n:" "adjustment:=n") 125
  match g.last? "n" with
  | some t => if (DateText.signed? t).isNone then fail l ("invalid adjustment " ++ cited t) 125
  | none => pure ()
  match g.operands with
  | [] =>
    emit l "0\n"
    done true
  | name :: _ =>
    match ← replace l g.operands l.env with
    | .missing => fail l (quoted name ++ ": " ++ Fault.message .notFound) 127
    | .denied f => fail l (quoted name ++ ": " ++ f.message) 126

def logname : Proc Unit := fail l "no login name"

def nohup : Proc Unit := do
  let g ← leadingOptions l (.of "" "") 125
  match g.operands with
  | [] => misuse l "missing operand" 125
  | name :: _ =>
    let _ ← Proc.call fun pid => Sys.dispose pid 1 .ignored
    match ← replace l g.operands l.env with
    | .missing =>
      runRefused l name .notFound
      Proc.exit 127
    | .denied f =>
      runRefused l name f
      Proc.exit 126

def timeout : Proc Unit := do
  let g ← leadingOptions l (.of "fk:ps:v" "foreground=f kill-after:=k preserve-status=p signal:=s verbose=v") 125
  match g.operands with
  | [] | [_] =>
    let _ ← Proc.write 2 (hint l)
    Proc.exit 125
  | time :: command =>
    match interval? time with
    | none => misuse l ("invalid time interval " ++ cited time) 125
    | some millis =>
      let signal ←
        match g.last? "s" with
        | none => pure 15
        | some t =>
          match signalOf? t with
          | some n => pure n
          | none => misuse l (cited t ++ ": invalid signal") 125
      let _ ← Proc.call fun pid => Sys.modifyProcess pid fun p => { p with group := pid }
      let child ← launch l command (runRefused l)
      let within ←
        if millis = 0 then
          let r ← Proc.await (awaitChild child)
          pure (r.map some)
        else Proc.awaitWithin millis (awaitChild child)
      match within with
      | .ok (some e) => Proc.exit e.status
      | _ =>
        if signal ≠ Signal.killed then
          let _ ← Proc.call fun pid => Sys.dispose pid signal .ignored
        let _ ← Proc.call fun pid => Sys.kill pid 0 signal
        let rest ←
          match (g.last? "k").bind interval? with
          | some ms => Proc.awaitWithin ms (awaitChild child)
          | none =>
            let r ← Proc.await (awaitChild child)
            pure (r.map some)
        match rest with
        | .ok (some e) => Proc.exit (if g.has "p" then e.status else 124)
        | _ =>
          let _ ← Proc.call fun pid => Sys.kill pid 0 Signal.killed
          Proc.exit 137

/-! Building command lines. -/

def quotedWords : Nat → Text → Option Char → Option Text → List Text × Option Char
  | 0, _, _, _ => ([], none)
  | _, [], none, current => (current.toList, none)
  | _, [], some q, _ => ([], some q)
  | fuel + 1, c :: rest, quote, current =>
    let add (x : Char) : Option Text := some (current.getD [] ++ [x])
    match quote with
    | some q =>
      if c = q then quotedWords fuel rest none (some (current.getD []))
      else if c = '\n' then ([], some q)
      else quotedWords fuel rest quote (add c)
    | none =>
      if c = ' ' ∨ c = '\t' ∨ c = '\n' then
        let (ws, open_) := quotedWords fuel rest none none
        (current.toList ++ ws, open_)
      else if c = '\'' ∨ c = '"' then quotedWords fuel rest (some c) (some (current.getD []))
      else if c = '\\' then
        match rest with
        | d :: more => quotedWords fuel more none (add d)
        | [] => (current.toList, none)
      else quotedWords fuel rest none (add c)

def groupsBy {α : Type} (size : Nat) : Nat → List α → List (List α)
  | 0, _ => []
  | _, [] => []
  | fuel + 1, xs => xs.take size :: groupsBy size fuel (xs.drop size)

def replaceAll (old new : Text) : Nat → Text → Text
  | 0, t => t
  | fuel + 1, t =>
    match Text.cut old t with
    | some (a, b) => if old = [] then t else a ++ new ++ replaceAll old new fuel b
    | none => t

def runLines (isTraced : Bool) : List (List Text) → Nat → Proc Nat
  | [], status => return status
  | words :: rest, status => do
    if isTraced then
      let _ ← Proc.write 2 ([' '].intercalate words ++ ['\n'])
    let name := words.headD []
    let child ← launch l words fun name f => say l (name ++ ": " ++ f.message)
    match ← Proc.await (awaitChild child) with
    | .ok (.exited 0) => runLines isTraced rest status
    | .ok (.exited 255) =>
      say l (name ++ ": exited with status 255; aborting")
      return 124
    | .ok (.exited n) => if n = 126 ∨ n = 127 then return n else runLines isTraced rest 123
    | .ok (.signaled n) =>
      say l (name ++ ": terminated by signal " ++ Text.ofNat n)
      return 125
    | .error _ => return 1

def xargs : Proc Unit := do
  let g ← leadingOptions l (.of "0a:d:E:e::I:i::L:l::n:oP:prs:tx"
    ("null=0 arg-file:=a delimiter:=d eof::=e replace::=I max-lines::=L max-args:=n max-procs:=P " ++
      "no-run-if-empty=r max-chars:=s verbose=t exit=x interactive=p"))
  let number (key : Text) : Proc (Option Nat) :=
    match g.last? key with
    | none => pure none
    | some t =>
      match natural? t with
      | some n => pure (some n)
      | none => misuse l ("invalid number \"" ++ t ++ "\" for -" ++ key ++ " option")
  let count ← number "n"
  let lineCount ← number "L"
  let input ←
    match g.last? "a" with
    | some path =>
      match ← readOperand path with
      | .ok t => pure t
      | .error f => fail l ("Cannot open input file " ++ quoted path ++ ": " ++ f.message)
    | none => pure ((← Proc.readAll 0).toOption.getD [])
  let command := if g.operands = [] then ["echo".toList] else g.operands
  let mark : Option Char :=
    if g.has "0" then some '\x00'
    else (g.last? "d").bind fun t =>
      match t with
      | ['\\', 'n'] => some '\n'
      | ['\\', 't'] => some '\t'
      | ['\\', '0'] => some '\x00'
      | t => t.head?
  let unmatched (q : Char) : Text :=
    "unmatched " ++ (if q = '"' then "double" else "single").toList ++
      " quote; by default quotes are special to xargs unless you use the -0 option"
  let replaced := (g.last? "I").or (g.last? "i")
  let words (t : Text) : List Text × Option Char := quotedWords (t.length + 1) t none none
  let split (t : Text) : Except Char (List Text) :=
    match words t with
    | (ws, none) => .ok ws
    | (_, some q) => .error q
  let lines : Except Char (List (List Text)) :=
    match replaced with
    | some pattern =>
      let pattern := if pattern = [] then "\x7b\x7d".toList else pattern
      let items : Except Char (List Text) :=
        match mark with
        | some m => .ok (linesOf m input)
        | none =>
          let lines := ((linesOf '\n' input).map fun t => t.dropWhile fun c => c == ' ' || c == '\t').filter (· ≠ [])
          lines.mapM fun t => (split t).map ([' '].intercalate)
      items.map fun items =>
        items.map fun item => command.map fun w => replaceAll pattern item (w.length + 1) w
    | none =>
      let groups (items : List Text) : List (List Text) :=
        match count with
        | some n => groupsBy (max n 1) (items.length + 1) items
        | none => if items = [] then [] else [items]
      let grouped : Except Char (List (List Text)) :=
        match mark, lineCount with
        | some m, _ => .ok (groups (linesOf m input))
        | none, some n => do
          let lines ← ((linesOf '\n' input).filter (· ≠ [])).mapM split
          return (groupsBy (max n 1) (lines.length + 1) lines).map List.flatten
        | none, none => (split input).map groups
      grouped.map fun gs =>
        if gs = [] then (if g.has "r" then [] else [command]) else gs.map (command ++ ·)
  match lines with
  | .error q =>
    -- The words before the open quote have been read already; those of the last group still wait.
    let ws := (words input).1
    let groups := groupsBy (max (count.getD ws.length) 1) (ws.length + 1) ws
    let _ ← runLines l (g.has "t") (groups.dropLast.map (command ++ ·)) 0
    say l (unmatched q)
    let _ ← runLines l (g.has "t") ((groups.getLast?.toList).map (command ++ ·)) 0
    Proc.exit 1
  | .ok lines => Proc.exit (← runLines l (g.has "t") lines 0)

end Runbook.Program
