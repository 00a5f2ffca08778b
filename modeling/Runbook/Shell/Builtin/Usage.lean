import Runbook.Shell.Engine

/-!
How the commands of the shell are used, and how their options are read.
-/
namespace Runbook.Shell
open ShellM Kernel

namespace Builtin

/-- How each command is used. Its name comes first. -/
def synopses : List Text :=
  List.map String.toList
  [ ". filename [arguments]", ":", "[ arg... ]", "alias [-p] [name[=value] ... ]", "bg [job_spec ...]",
    "bind [-lpsvPSVX] [-m keymap] [-f filename] [-q name] [-u name] [-r keyseq] [-x " ++
      "keyseq:shell-command] [keyseq:readline-function or readline-command]",
    "break [n]", "builtin [shell-builtin [arg ...]]", "caller [expr]", "cd [-L|[-P [-e]] [-@]] [dir]",
    "command [-pVv] command [arg ...]",
    "compgen [-abcdefgjksuv] [-o option] [-A action] [-G globpat] [-W wordlist] [-F function] " ++
      "[-C command] [-X filterpat] [-P prefix] [-S suffix] [word]",
    "complete [-abcdefgjksuv] [-pr] [-DEI] [-o option] [-A action] [-G globpat] [-W wordlist] " ++
      "[-F function] [-C command] [-X filterpat] [-P prefix] [-S suffix] [name ...]",
    "compopt [-o|+o option] [-DEI] [name ...]", "continue [n]",
    "declare [-aAfFgiIlnrtux] [name[=value] ...] or declare -p [-aAfFilnrtux] [name ...]",
    "dirs [-clpv] [+N] [-N]", "disown [-h] [-ar] [jobspec ... | pid ...]", "echo [-neE] [arg ...]",
    "enable [-a] [-dnps] [-f filename] [name ...]", "eval [arg ...]",
    "exec [-cl] [-a name] [command [argument ...]] [redirection ...]", "exit [n]",
    "export [-fn] [name[=value] ...] or export -p", "false",
    "fc [-e ename] [-lnr] [first] [last] or fc -s [pat=rep] [command]", "fg [job_spec]",
    "getopts optstring name [arg ...]", "hash [-lr] [-p pathname] [-dt] [name ...]",
    "help [-dms] [pattern ...]",
    "history [-c] [-d offset] [n] or history -anrw [filename] or history -ps arg [arg...]",
    "jobs [-lnprs] [jobspec ...] or jobs -x command [args]",
    "kill [-s sigspec | -n signum | -sigspec] pid | jobspec ... or kill -l [sigspec]", "let arg [arg ...]",
    "local [option] name[=value] ...", "logout [n]",
    "mapfile [-d delim] [-n count] [-O origin] [-s count] [-t] [-u fd] [-C callback] [-c " ++
      "quantum] [array]",
    "popd [-n] [+N | -N]", "printf [-v var] format [arguments]", "pushd [-n] [+N | -N | dir]", "pwd [-LP]",
    "read [-ers] [-a array] [-d delim] [-i text] [-n nchars] [-N nchars] [-p prompt] [-t " ++
      "timeout] [-u fd] [name ...]",
    "readarray [-d delim] [-n count] [-O origin] [-s count] [-t] [-u fd] [-C callback] [-c " ++
      "quantum] [array]",
    "readonly [-aAf] [name[=value] ...] or readonly -p", "return [n]",
    "set [-abefhkmnptuvxBCEHPT] [-o option-name] [--] [-] [arg ...]", "shift [n]",
    "shopt [-pqsu] [-o] [optname ...]", "source filename [arguments]", "suspend [-f]", "test [expr]",
    "times", "trap [-lp] [[arg] signal_spec ...]", "true", "type [-afptP] name [name ...]",
    "typeset [-aAfFgiIlnrtux] name[=value] ... or typeset -p [-aAfFilnrtux] [name ...]",
    "ulimit [-SHabcdefiklmnpqrstuvxPRT] [limit]", "umask [-p] [-S] [mode]", "unalias [-a] name [name ...]",
    "unset [-f] [-v] [-n] [name ...]", "wait [-fn] [-p var] [id ...]"]

def nameIn (synopsis : Text) : Text := synopsis.takeWhile (· != ' ')

def names : List Text := synopses.map nameIn

def usage? (name : Text) : Option Text := synopses.find? (nameIn · = name)

def showUsage (name : Text) : ShellM Unit := do
  let _ ← write 2 (name ++ ": usage: " ++ (usage? name).getD [] ++ ['\n'])
  setStatus 2

def badOption (name option : Text) : ShellM Unit := do
  complain name (option ++ ": invalid option")
  showUsage name

def missingArgument (name option : Text) : ShellM Unit := do
  complain name (option ++ ": option requires an argument")
  setStatus 2
  showUsage name

/-- An option that was given, with its value if it takes one. `isOff` tells that a plus stood before
it. -/
structure Choice where
  letter : Char
  value : Text := []
  isOff : Bool := false

/-- Which options a command takes: letters alone, letters with a value, and whether a plus may stand
for the dash. -/
structure Letters where
  plain : Text
  valued : Text := []
  withPlus : Bool := false

inductive OptionFault where
  | unknown (option : Text)
  | unfinished (option : Text)

def lettersOf (ls : Letters) (isOff : Bool) : Text → Except OptionFault (List Choice × Option Char)
  | [] => .ok ([], none)
  | c :: rest =>
    if c ∈ ls.valued then
      if rest = [] then .ok ([], some c) else .ok ([⟨c, rest, isOff⟩], none)
    else if c ∈ ls.plain then
      match lettersOf ls isOff rest with
      | .ok (os, waiting) => .ok (⟨c, [], isOff⟩ :: os, waiting)
      | .error e => .error e
    else .error (.unknown [if isOff then '+' else '-', c])

def scan (ls : Letters) : List Text → Except OptionFault (List Choice × List Text)
  | [] => .ok ([], [])
  | t :: rest =>
    let sign := t.head?
    let isOption := 2 ≤ t.length && (sign = some '-' || (ls.withPlus && sign = some '+'))
    if t = "--" then .ok ([], rest)
    else if !isOption then .ok ([], t :: rest)
    else
      let isOff := sign = some '+'
      match lettersOf ls isOff (t.drop 1) with
      | .error e => .error e
      | .ok (os, none) =>
        match scan ls rest with
        | .ok (more, operands) => .ok (os ++ more, operands)
        | .error e => .error e
      | .ok (os, some c) =>
        match rest with
        | [] => .error (.unfinished ['-', c])
        | value :: rest =>
          match scan ls rest with
          | .ok (more, operands) => .ok (os ++ ⟨c, value, isOff⟩ :: more, operands)
          | .error e => .error e

def withOptions (name : Text) (ls : Letters) (args : List Text)
    (f : List Choice → List Text → ShellM Unit) : ShellM Unit :=
  match scan ls args with
  | .ok (os, operands) => f os operands
  | .error (.unknown o) => badOption name o
  | .error (.unfinished o) => missingArgument name o

def has (os : List Choice) (c : Char) : Bool := os.any (·.letter == c)

def value? (os : List Choice) (c : Char) : Option Text :=
  (os.reverse.find? (·.letter == c)).map (·.value)

def writeOut (name t : Text) : ShellM Unit := do
  if t = [] then setStatus 0
  else
    match ← write 1 t with
    | .ok () => setStatus 0
    | .error f =>
      complain name ("write error: " ++ f.message)
      setStatus 1

abbrev Run := Engine → List Text → ShellM Unit

end Builtin

end Runbook.Shell
