import Runbook.Program.Characters
import Runbook.Program.Columns
import Runbook.Program.Comparing
import Runbook.Program.Editor
import Runbook.Program.Finding
import Runbook.Program.Numbers
import Runbook.Program.Sorting

/-!
All programs by their names.
-/
namespace Runbook.Program
open Kernel

def table : List (Text × (Launch → Proc Unit)) :=
  List.map (fun (name, program) => (String.toList name, program))
  [ ("[", bracket), ("arch", saying "x86_64"), ("basename", basename), ("cat", cat), ("chmod", chmod),
    ("cmp", cmp), ("comm", comm), ("cp", cp), ("cut", cut), ("date", date), ("diff", diff),
    ("dirname", dirname), ("echo", echo), ("egrep", grepAs "-E"), ("env", env), ("expr", expr),
    ("false", false_), ("fgrep", grepAs "-F"), ("find", find), ("fold", fold), ("grep", grep),
    ("groups", saying "root"), ("head", head), ("hostname", saying "localhost"), ("id", id), ("kill", kill),
    ("ln", ln), ("ls", ls), ("mkdir", mkdir), ("mkfifo", mkfifo), ("mktemp", mktemp), ("mv", mv),
    ("logname", logname), ("nice", nice), ("nl", nl), ("nohup", nohup), ("nproc", saying "1"), ("od", od),
    ("paste", paste), ("printenv", printenv), ("printf", printf), ("pwd", pwd), ("readlink", readlink),
    ("realpath", realpath), ("rev", rev), ("rgrep", grepAs "-r"), ("rm", rm), ("rmdir", rmdir),
    ("sed", sed), ("seq", seq), ("sleep", sleep), ("sort", sort), ("stat", stat), ("sync", true_),
    ("tac", tac), ("tail", tail), ("tee", tee), ("test", test), ("timeout", timeout), ("touch", touch),
    ("tr", tr), ("true", true_), ("truncate", truncate), ("tty", tty), ("uname", uname), ("uniq", uniq),
    ("wc", wc), ("which", which), ("whoami", saying "root"), ("xargs", xargs), ("yes", yes) ]

end Runbook.Program
