import Runbook.Shell.Builtin.Lookup
import Runbook.Shell.FileTest

/-!
Commands that work out expressions, tell where the shell stands, and complete words.
-/
namespace Runbook.Shell
open ShellM Kernel

namespace Builtin

def letEach : List Text → ShellM Unit
  | [] => return ()
  | t :: rest => do
    match ← tryEvaluate "let" t with
    | none => setStatus 1
    | some n => do
      setStatus (if n = 0 then 1 else 0)
      letEach rest

def let_ : Run := fun _ args =>
  let args : List Text := match args with | ['-', '-'] :: rest => rest | args => args
  if args = [] then do
    complain "let" "expression expected"
    setStatus 1
  else letEach args

def caller : Run := fun _ args =>
  withOptions "caller" { plain := [] } args fun _ operands => do
    let frames := (← get).frames
    let fileAt (n : Nat) : Option Text := frames[n]?.map (·.file)
    match operands with
    | [] =>
      match frames.head? with
      | none => setStatus 1
      | some f => writeOut "caller" (Text.ofNat f.line ++ ' ' :: (fileAt 1).getD "NULL" ++ ['\n'])
    | t :: _ =>
      match FileTest.integer? t with
      | none => do
        complain "caller" (t ++ ": invalid number")
        showUsage "caller"
      | some n =>
        match frames[n.toNat]?, frames[n.toNat + 1]? with
        | some f, some g =>
          writeOut "caller" (Text.ofNat f.line ++ ' ' :: g.name ++ ' ' :: g.file ++ ['\n'])
        | _, _ => setStatus 1

def help : Run := fun _ args =>
  withOptions "help" { plain := "dms" } args fun _ operands => do
    setStatus 0
    for name in operands do
      match usage? name with
      | some t =>
        let _ ← write 1 (name ++ ": " ++ t ++ ['\n'])
      | none =>
        complain "help" ("no help topics match \x60" ++ name ++ "'.  Try \x60help help' or \x60man -k " ++ name ++
          "' or \x60info " ++ name ++ "'.")
        setStatus 1

def idle (name : Text) (ls : Letters) : Run := fun _ args => withOptions name ls args fun _ _ => setStatus 0

def compopt : Run := fun _ args =>
  withOptions "compopt" { plain := "DEI", valued := "o", withPlus := true } args fun _ operands => do
    if operands = [] then
      complain "compopt" "not currently executing completion function"
      setStatus 1
    else setStatus 0

def bind : Run := fun _ args => do
  complain "bind" "warning: line editing not enabled"
  withOptions "bind" { plain := "lpsvPSVX", valued := "mfqurx" } args fun _ _ => setStatus 0

def wordsOfKind (s : State) (kind : Text) : Option (List Text) :=
  match String.ofList kind with
  | "alias" => some ((sortedAliases s).map (·.1))
  | "builtin" => some names
  | "function" => some ((sortedFunctions s).map (·.1))
  | "keyword" => some keywords
  | "variable" =>
    let isSeen (v : Variable) : Bool := v.value.isSet || (v.attributes.live && v.value.kind = .single)
    some ((s.sorted.filter fun (_, v) => isSeen v).map (·.1))
  | "export" => some ((s.sorted.filter (·.2.attributes.exported)).map (·.1))
  | "setopt" => some (Setting.all.map Setting.name)
  | "shopt" => some Behaviour.all
  | "signal" => some (Signal.all.map fun (_, n) => "SIG" ++ n)
  | "command" | "file" | "directory" | "user" | "group" | "job" | "service" | "hostname" | "disabled" | "enabled"
  | "running" | "stopped" | "binding" | "helptopic" | "arrayvar" => some []
  | _ => none

def kindOfLetter (c : Char) : Option Text :=
  match c with
  | 'a' => some "alias"
  | 'b' => some "builtin"
  | 'k' => some "keyword"
  | 'v' => some "variable"
  | 'e' => some "export"
  | _ => none

def compgen : Run := fun e args =>
  withOptions "compgen" { plain := "abcdefgjksuv", valued := "oAGWFCXPS" } args fun os operands => do
    let s ← get
    let kinds := (os.filter (·.letter == 'A')).map (·.value) ++ os.filterMap fun o => kindOfLetter o.letter
    match kinds.find? fun k => (wordsOfKind s k).isNone with
    | some k =>
      complain "compgen" (k ++ ": invalid action name")
      setStatus 2
    | none =>
      let given ←
        match value? os 'W' with
        | some t =>
          let glyphs ← Expansion.wordGlyphs (Engine.substituter e) true t
          pure ((Glyph.split s.dividers (glyphs.map fun
            | .char c .plain => .char c .value
            | g => g)).map Glyph.text)
        | none => pure []
      let all := kinds.flatMap (fun k => (wordsOfKind s k).getD []) ++ given
      let start := operands.headD []
      let found := all.filter fun w => Text.startsWith w start
      let lead := (value? os 'P').getD []
      let tail := (value? os 'S').getD []
      let _ ← write 1 (found.flatMap fun w => lead ++ w ++ tail ++ ['\n'])
      setStatus (if found = [] then 1 else 0)

end Builtin

end Runbook.Shell
