import Runbook.Shell.Builtin.Directory
import Runbook.Shell.Builtin.Flow
import Runbook.Shell.Builtin.Input
import Runbook.Shell.Builtin.Output
import Runbook.Shell.Builtin.Process
import Runbook.Shell.Builtin.Settings
import Runbook.Shell.Builtin.Test
import Runbook.Shell.Builtin.Various

/-!
All commands of the shell by name.
-/
namespace Runbook.Shell

namespace Builtin

def declaring (name : Text) : Run := fun e args => runDeclaring e name (args.map .text)

def table : List (String × Run) :=
  [(".", dot), (":", succeed), ("[", bracket), ("alias", setAliases), ("bg", noJobControl "bg"),
    ("bind", Builtin.bind), ("break", break_), ("builtin", builtin), ("caller", caller), ("cd", cd),
    ("command", command), ("compgen", compgen),
    ("complete", idle "complete" { plain := "abcdefgjksuvprDEI", valued := "oAGWFCXPS" }),
    ("compopt", compopt), ("continue", continue_), ("declare", declaring "declare"), ("dirs", dirs),
    ("disown", disown), ("echo", echo), ("enable", enable), ("eval", eval), ("exec", exec), ("exit", exit),
    ("export", declaring "export"), ("false", fail), ("fc", idle "fc" { plain := "lnrs", valued := "e" }),
    ("fg", noJobControl "fg"), ("getopts", getopts), ("hash", hash), ("help", help),
    ("history", idle "history" { plain := "canrwps", valued := "d" }), ("jobs", jobs), ("kill", kill),
    ("let", let_), ("local", declaring "local"), ("logout", logout), ("mapfile", mapfile), ("popd", popd),
    ("printf", printf), ("pushd", pushd), ("pwd", pwd), ("read", read), ("readarray", readarray),
    ("readonly", declaring "readonly"), ("return", return_), ("set", set), ("shift", shift), ("shopt", shopt),
    ("source", source), ("suspend", suspend), ("test", test), ("times", times), ("trap", trap),
    ("true", succeed), ("type", type), ("typeset", declaring "typeset"), ("ulimit", ulimit), ("umask", umask),
    ("unalias", unalias), ("unset", unset), ("wait", wait)]

def run? (name : Text) : Option Run := table.lookup (.ofList name)

end Builtin

end Runbook.Shell
