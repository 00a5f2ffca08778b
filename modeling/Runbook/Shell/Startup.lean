import Runbook.Shell.RunText

/-!
How a shell starts: its options, what it takes over from its environment, and where its commands come
from.
-/
namespace Runbook.Shell
open ShellM Kernel

namespace Startup

/-! Options. -/

structure Invocation where
  takesText : Bool := false
  readsInput : Bool := false
  settings : List (Setting × Bool) := []
  behaviours : List (Text × Bool) := []
  isPosix : Bool := false

inductive StartError where
  | unknown (option : Text)
  | badSetting (name : Text)
  | badBehaviour (name : Text)
  | version

def longOptions : List Text :=
  ["--debug", "--debugger", "--login", "--noediting", "--noprofile", "--norc", "--posix", "--pretty-print",
    "--restricted", "--verbose"]

def lettersFrom (on : Bool) : Text → List Text → Invocation → Except StartError (Invocation × List Text)
  | [], rest, i => .ok (i, rest)
  | c :: ls, rest, i =>
    match c with
    | 'c' => lettersFrom on ls rest { i with takesText := true }
    | 's' => lettersFrom on ls rest { i with readsInput := true }
    | 'i' | 'l' | 'r' | 'D' => lettersFrom on ls rest i
    | 'o' =>
      match rest with
      | name :: more =>
        match Setting.ofName? name with
        | some x => lettersFrom on ls more { i with settings := i.settings ++ [(x, on)] }
        | none => .error (.badSetting name)
      | [] => lettersFrom on ls rest i
    | 'O' =>
      match rest with
      | name :: more =>
        if name ∈ Behaviour.all then lettersFrom on ls more { i with behaviours := i.behaviours ++ [(name, on)] }
        else .error (.badBehaviour name)
      | [] => lettersFrom on ls rest i
    | c =>
      match Setting.ofLetter? c with
      | some x => lettersFrom on ls rest { i with settings := i.settings ++ [(x, on)] }
      | none => .error (.unknown [if on then '-' else '+', c])

/-- The options in front of what is run; `fuel` is more than the number of words. -/
def optionsFrom : Nat → List Text → Invocation → Except StartError (Invocation × List Text)
  | 0, args, i => .ok (i, args)
  | _, [], i => .ok (i, [])
  | fuel + 1, t :: rest, i =>
    match t with
    | ['-'] | ['-', '-'] => .ok (i, rest)
    | '-' :: '-' :: _ =>
      if t = "--version" then .error .version
      else if t = "--posix" then optionsFrom fuel rest { i with isPosix := true }
      else if t ∈ longOptions then optionsFrom fuel rest i
      else if t = "--rcfile" ∨ t = "--init-file" then optionsFrom fuel (rest.drop 1) i
      else .error (.unknown t)
    | sign :: c :: ls =>
      if sign = '-' ∨ sign = '+' then
        match lettersFrom (sign = '-') (c :: ls) rest i with
        | .ok (i, rest) => optionsFrom fuel rest i
        | .error e => .error e
      else .ok (i, t :: rest)
    | _ => .ok (i, t :: rest)

def usageText (name : Text) : Text :=
  "Usage:\t" ++ name ++ " [GNU long option] [option] ...\n\t" ++ name ++
    " [GNU long option] [option] script-file ...\nGNU long options:\n" ++
    (["--debug", "--debugger", "--dump-po-strings", "--dump-strings", "--help", "--init-file", "--login",
      "--noediting", "--noprofile", "--norc", "--posix", "--pretty-print", "--rcfile", "--restricted", "--verbose",
      "--version"] : List Text).flatMap (fun t => '\t' :: t ++ ['\n']) ++
    "Shell options:\n\t-ilrsD or -c command or -O shopt_option\t\t(invocation only)\n" ++
    "\t-abefhkmnptuvxBCEHPT or -o option\n"

def versionText : Text := "GNU bash, version 5.2.21(1)-release (x86_64-pc-linux-gnu)\n"

/-! The environment. -/

def liveVariables : List (Text × Variable) :=
  let live (v : Variable) (names : Text) : List (Text × Variable) :=
    (List.splitOn ' ' names).map fun name => (name, { v with attributes := { v.attributes with live := true } })
  live {} "BASH_ARGV0 BASH_COMMAND BASH_SUBSHELL COMP_WORDBREAKS EPOCHREALTIME EPOCHSECONDS LINENO SECONDS" ++
    live { attributes := { integer := true } } "BASHPID HISTCMD RANDOM SRANDOM" ++
    live { value := .indexed [] } "BASH_ARGC BASH_ARGV BASH_LINENO BASH_SOURCE DIRSTACK GROUPS PIPESTATUS" ++
    live { value := .absent .indexed } "FUNCNAME" ++
    live { value := .keyed [] } "BASH_ALIASES BASH_CMDS" ++
    live { value := .one [], attributes := { readonly := true } } "BASHOPTS SHELLOPTS"

def defaults : List (Text × Variable) :=
  let plain (t : Text) : Variable := { value := .one t }
  let fixed (t : Text) : Variable := { value := .one t, attributes := { readonly := true, integer := true } }
  let versions : List Text := ["5", "2", "21", "1", "release", "x86_64-pc-linux-gnu"]
  [ ("BASH", plain "/usr/bin/bash"),
    ("BASH_LOADABLES_PATH",
      plain "/usr/local/lib/bash:/usr/lib/bash:/opt/local/lib/bash:/usr/pkg/lib/bash:/opt/pkg/lib/bash:."),
    ("BASH_VERSINFO", { value := .indexed (Elements.ofList versions), attributes := { readonly := true } }),
    ("BASH_VERSION", plain "5.2.21(1)-release"),
    ("EUID", fixed "0"),
    ("HOSTNAME", plain "localhost"),
    ("HOSTTYPE", plain "x86_64"),
    ("IFS", plain " \t\n"),
    ("MACHTYPE", plain "x86_64-pc-linux-gnu"),
    ("OLDPWD", { attributes := { exported := true } }),
    ("OPTERR", plain "1"),
    ("OPTIND", { value := .one ['1'], attributes := { integer := true } }),
    ("OSTYPE", plain "linux-gnu"),
    ("PATH", plain "/usr/local/sbin:/usr/local/bin:/usr/sbin:/usr/bin:/sbin:/bin"),
    ("PS4", plain "+ "),
    ("SHELL", plain "/bin/bash"),
    ("TERM", plain "dumb"),
    ("UID", fixed "0") ]

def isOwn (name : Text) : Bool :=
  name ∈ (["IFS", "BASHOPTS", "SHELLOPTS", "EUID", "UID", "PPID", "BASH_VERSINFO", "BASH_VERSION", "BASH", "SHLVL",
    "OPTIND", "OPTERR", "HOSTTYPE", "MACHTYPE", "OSTYPE"] : List Text)

def functionName? (name : Text) : Option Text :=
  match ("BASH_FUNC_".toList.isPrefixOf? name) with
  | some rest => if Text.endsWith rest "%%" then some (rest.take (rest.length - 2)) else none
  | none => none

def functionOf? (name t : Text) : Option Function :=
  match readLine {} (Input.ofText 1 (name ++ ' ' :: t)) with
  | (.command (.function line base _ body), _) =>
    some { body := body, line := line, base := base, file := "environment", exported := true }
  | _ => none

def variablesFrom (env : Environment) : List (Text × Variable) :=
  let taken := env.filter fun (name, _) => isIdentifier name && !isOwn name
  let given := taken.foldl (fun vs (name, t) => State.putFirst name ⟨.one t, { exported := true }⟩ vs) []
  let all := defaults.foldl (fun vs (name, v) => if vs.any (·.1 = name) then vs else (name, v) :: vs) given
  let exported (v : Variable) : Variable := { v with attributes := { v.attributes with exported := true } }
  liveVariables.foldl (fun vs (name, v) => State.putFirst name (if vs.any (·.1 = name) then exported v else v) vs) all

def functionsFrom (env : Environment) : List (Text × Function) :=
  env.filterMap fun (name, t) =>
    (functionName? name).bind fun f => (functionOf? f t).map (f, ·)

def levelFrom (env : Environment) : Nat :=
  match env.get? "SHLVL" with
  | some t => if t ≠ [] ∧ t.all Char.isDigit then State.decimal t + 1 else 1
  | none => 1

/-! Starting. -/

structure Surroundings where
  parent : Nat
  directory : Text
  millis : Nat
  noise : Nat
  ignored : List Nat

def surroundings : Proc Surroundings := do
  let pid ← Proc.self
  Proc.look fun w =>
    match w.processes.lookup pid with
    | some p =>
      { parent := p.parent
        directory := w.disk.pathOf p.cwd
        millis := w.clock.millis
        noise := w.noise
        ignored := p.dispositions.filterMap fun (n, d) => if d = .ignored then some n else none }
    | none => ⟨1, ['/'], 0, 0, []⟩

def directoryFrom (env : Environment) (pid : Nat) (actual : Text) : Sys Text := do
  match env.get? "PWD" with
  | some t =>
    if t.head? = some '/' then
      try
        let i ← Sys.stat pid true t
        return if i = (← Sys.process pid).cwd then t else actual
      catch _ => return actual
    else return actual
  | none => return actual

def initial (pid : Nat) (around : Surroundings) (directory name : Text) (env : Environment) : State :=
  let exported (t : Text) : Variable := ⟨.one t, { exported := true }⟩
  let s : State :=
    { pid := pid
      mainPid := pid
      parentPid := around.parent
      name := name
      scopes := [{ bindings := variablesFrom env }]
      functions := functionsFrom env
      directory := directory
      started := around.millis
      now := around.millis
      seed := (around.noise * 65599 + pid * 31 + around.millis) % 2147483647 + 1
      ignoredAtStart := around.ignored
      jobs := [] }
  let s := s.put "PWD" (exported directory)
  let s := s.put "SHLVL" (exported (Text.ofNat (levelFrom env)))
  let s := s.put "PPID" ⟨.one (Text.ofNat around.parent), { readonly := true, integer := true }⟩
  s.put ['_'] ⟨.one ((env.get? ['_']).getD name), {}⟩

def life (e : Engine) (m : ShellM Unit) : ShellM Unit := do
  let r ← attempt m
  match r with
  | .error .abort =>
    let s ← get
    if s.isCommandText ∧ s.status = 1 ∧ !s.isOn .errexit then setStatus 127
  | _ => pure ()
  let _ ← attempt (Engine.runLeaving e)

def runFile (e : Engine) (path : Text) : ShellM Unit := do
  let fail (t : Text) (status : Nat) : ShellM Unit := do
    let _ ← write 2 (t ++ ['\n'])
    setStatus status
  let s ← get
  match ← call fun pid => do
      let i ← Sys.stat pid true path
      return (← Sys.disk).content i with
  | .error f => fail (s.name ++ ": " ++ path ++ ": " ++ f.message) 127
  | .ok (.directory ..) => fail (path ++ ": " ++ path ++ ": Is a directory") 126
  | .ok (.program _) => fail (path ++ ": " ++ path ++ ": cannot execute binary file") 126
  | .ok _ =>
    match ← lift <| Proc.opening path .forReading fun pid => Sys.openFrom pid 200 path .forReading 0 with
    | .error f => fail (s.name ++ ": " ++ path ++ ": " ++ f.message) 126
    | .ok fd =>
      let t := (← lift (Proc.readAll fd)).toOption.getD []
      Engine.closeDescriptor fd
      if Engine.isBinary t then fail (path ++ ": " ++ path ++ ": cannot execute binary file") 126
      else
        modify fun s => { s with name := path, frames := [⟨"main", 0, path, false⟩] }
        e.runText { isMain := true } t

def applyOptions (i : Invocation) (s : State) : State :=
  let s := i.settings.foldl (fun s (x, on) => s.turn x on) s
  let s := i.behaviours.foldl (fun s (n, on) => s.switch n on) s
  if i.isPosix then s.turn .posix true else s

def start (e : Engine) (args : List Text) (env : Environment) : Proc Unit := do
  let pid ← Proc.self
  let around ← surroundings
  let directory := (← Proc.call fun pid => directoryFrom env pid around.directory).toOption.getD around.directory
  let name := args.headD "bash"
  let fail (t : Text) (status : Nat) : Proc Unit := do
    let _ ← Proc.write 2 t
    Proc.exit status
  match optionsFrom (args.length + 1) (args.drop 1) {} with
  | .error (.unknown o) => fail (name ++ ": " ++ o ++ ": invalid option\n" ++ usageText name) 2
  | .error (.badSetting o) => fail (name ++ ": line 0: " ++ name ++ ": " ++ o ++ ": invalid option name\n") 2
  | .error (.badBehaviour o) => fail (name ++ ": line 0: " ++ o ++ ": invalid shell option name\n") 2
  | .error .version =>
    let _ ← Proc.write 1 versionText
    Proc.exit 0
  | .ok (i, rest) =>
    let run (s : State) (m : ShellM Unit) : Proc Unit := fun _ _ =>
      life e m s fun _ s => .finish (.exited s.status)
    let s := applyOptions i (initial pid around directory name env)
    if i.takesText then
      match rest with
      | [] => fail (name ++ ": -c: option requires an argument\n") 2
      | text :: more =>
        let s : State :=
          { s with
            name := more.headD name
            arguments := more.drop 1
            isCommandText := true
            commandText := text }
        let s := s.put "BASH_EXECUTION_STRING" { value := .one text }
        run s (e.runText { isMain := true, label := "-c" } text)
    else
      match i.readsInput, rest with
      | false, path :: more => run { s with arguments := more } (runFile e path)
      | _, _ =>
        run { s with arguments := rest, readsInput := i.readsInput || rest = [] }
          (RunText.fromDescriptor e 0 100000000 1 [])

end Startup

end Runbook.Shell
