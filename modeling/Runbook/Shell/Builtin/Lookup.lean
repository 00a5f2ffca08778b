import Runbook.Shell.Builtin.Declare

/-!
The commands that say what a name means, and that change it.
-/
namespace Runbook.Shell
open ShellM Kernel

namespace Builtin

def keywords : List Text :=
  List.splitOn ' '
    ("if then else elif fi case esac for select while until do done in function time \x7b \x7d ! [[ ]] coproc" : Text)

def isBuiltin (s : State) (name : Text) : Bool := name ∈ names && name ∉ s.disabled

inductive Found where
  | aliased (t : Text)
  | keyword
  | function (f : Function)
  | builtin
  | hashed (path : Text)
  | file (path : Text)

def filesOf (name : Text) : List Text → ShellM (List Text)
  | [] => return []
  | dir :: rest => do
    let path := under dir name
    let others ← filesOf name rest
    return if (← Engine.fileKind path) = .runnable then path :: others else others

def programsOf (name : Text) : ShellM (List Text) := do
  if '/' ∈ name then return if (← Engine.fileKind name) = .runnable then [name] else []
  else
    match (← get).text? "PATH" with
    | some path => filesOf name (Engine.pathParts path)
    | none => return []

def meanings (skipsFunctions : Bool) (name : Text) : ShellM (List Found) := do
  let s ← get
  let aliased := if s.does "expand_aliases" then (s.aliases.lookup name).toList.map .aliased else []
  let keyword := if name ∈ keywords then [.keyword] else []
  let function := if skipsFunctions then [] else (s.function? name).toList.map .function
  let own := if isBuiltin s name then [.builtin] else []
  let remembered := (s.hashed.lookup name).toList.map fun (path, _) => .hashed path
  let files ← programsOf name
  return aliased ++ keyword ++ function ++ own ++ remembered ++ files.map .file

def Found.typeName : Found → Text
  | aliased _ => "alias"
  | keyword => "keyword"
  | function _ => "function"
  | builtin => "builtin"
  | hashed _ | file _ => "file"

def Found.path? : Found → Option Text
  | hashed p | file p => some p
  | _ => none

def Found.sentence (name : Text) : Found → Text
  | aliased t => name ++ " is aliased to \x60" ++ t ++ "'\n"
  | keyword => name ++ " is a shell keyword\n"
  | function f => name ++ " is a function\n" ++ functionLine name f
  | builtin => name ++ " is a shell builtin\n"
  | hashed p => name ++ " is hashed (" ++ p ++ ")\n"
  | file p => name ++ " is " ++ p ++ ['\n']

def aliasLine (name t : Text) : Text := "alias " ++ name ++ '=' :: singleQuote t ++ ['\n']

def Found.callText (name : Text) : Found → Text
  | aliased t => aliasLine name t
  | hashed p | file p => p ++ ['\n']
  | _ => name ++ ['\n']

/-! Saying what names mean. -/

def typeEach (os : List Choice) : List Text → ShellM Bool
  | [] => return true
  | name :: rest => do
    let found ← meanings (has os 'f' || has os 'P') name
    let found := if has os 'P' then found.filter (·.path?.isSome) else found
    let shown :=
      if has os 'a' then found.filter fun x => !(x matches .hashed _) else found.take 1
    if shown = [] then
      if !has os 't' ∧ !has os 'p' ∧ !has os 'P' then complain "type" (name ++ ": not found")
    else
      let text := shown.flatMap fun x =>
        if has os 't' then x.typeName ++ ['\n']
        else if has os 'p' ∨ has os 'P' then (x.path?.map (· ++ ['\n'])).getD []
        else x.sentence name
      let _ ← write 1 text
    let others ← typeEach os rest
    return shown ≠ [] && others

def type : Run := fun _ args =>
  withOptions "type" { plain := "afptP" } args fun os operands => do
    finish (← typeEach os operands)

def describeEach (long : Bool) : List Text → ShellM Bool
  | [] => return false
  | name :: rest => do
    let found := (← meanings false name).head?
    match found with
    | some x =>
      let _ ← write 1 (if long then x.sentence name else x.callText name)
    | none => if long then complain "command" (name ++ ": not found")
    let others ← describeEach long rest
    return found.isSome || others

def command : Run := fun e args =>
  withOptions "command" { plain := "pvV" } args fun os operands => do
    if operands = [] then setStatus 0
    else if has os 'v' ∨ has os 'V' then finish (← describeEach (has os 'V') operands)
    else e.runWords .noFunction operands

def builtin : Run := fun e args =>
  withOptions "builtin" { plain := [] } args fun _ operands => do
    match operands with
    | [] => setStatus 0
    | name :: _ =>
      if isBuiltin (← get) name then e.runWords .builtin operands
      else do
        complain "builtin" (name ++ ": not a shell builtin")
        setStatus 1

/-! Aliases. -/

def isAliasName (t : Text) : Bool :=
  t ≠ [] && t.all fun c => !(c ∈ (" \t\n/$`'\"\\&|;<>()=" : Text))

def sortedAliases (s : State) : List (Text × Text) := s.aliases.mergeSort fun a b => Text.le a.1 b.1

def aliasEach : List Text → ShellM Bool
  | [] => return true
  | t :: rest => do
    let s ← get
    let ok ←
      match Text.cutAt (· == '=') t with
      | some (name, value) =>
        if name = [] then aliasShow s t
        else if isAliasName name then
          modify fun s => { s with aliases := (name, value) :: s.aliases.filter (·.1 ≠ name) }
          pure true
        else
          complain "alias" ("\x60" ++ name ++ "': invalid alias name")
          pure false
      | none => aliasShow s t
    let others ← aliasEach rest
    return ok && others
where
  aliasShow (s : State) (name : Text) : ShellM Bool := do
    match s.aliases.lookup name with
    | some value =>
      let _ ← write 1 (aliasLine name value)
      return true
    | none =>
      complain "alias" (name ++ ": not found")
      return false

def setAliases : Run := fun _ args =>
  withOptions "alias" { plain := "p" } args fun os operands => do
    let s ← get
    if operands = [] ∨ has os 'p' then
      let _ ← write 1 ((sortedAliases s).flatMap fun (n, v) => aliasLine n v)
    finish (← aliasEach operands)

def unalias : Run := fun _ args =>
  withOptions "unalias" { plain := "a" } args fun os operands =>
    if has os 'a' then do
      modify fun s => { s with aliases := [] }
      setStatus 0
    else if operands = [] then showUsage "unalias"
    else do
      setStatus 0
      for name in operands do
        if (← get).aliases.any (·.1 = name) then
          modify fun s => { s with aliases := s.aliases.filter (·.1 ≠ name) }
        else
          complain "unalias" (name ++ ": not found")
          setStatus 1

/-! Remembered programs. -/

def hashLine (asCommand : Bool) (name path : Text) (hits : Nat) : Text :=
  if asCommand then "builtin hash -p " ++ path ++ ' ' :: name ++ ['\n']
  else
    let n := Text.ofNat hits
    List.replicate (4 - n.length) ' ' ++ n ++ '\t' :: path ++ ['\n']

def hash : Run := fun _ args =>
  withOptions "hash" { plain := "dlrt", valued := "p" } args fun os operands => do
    let s ← get
    let notFound (name : Text) : ShellM Unit := do
      complain "hash" (name ++ ": not found")
      setStatus 1
    setStatus 0
    if has os 'r' then modify fun s => { s with hashed := [] }
    match value? os 'p' with
    | some path =>
      for name in operands do
        modify fun s => { s with hashed := s.hashed.filter (·.1 ≠ name) ++ [(name, path, 0)] }
    | none =>
      if operands = [] then
        if has os 'r' then pure ()
        else if s.hashed = [] then
          if !has os 'l' then
            let _ ← write 1 "hash: hash table empty\n"
        else
          let lines := s.hashed.flatMap fun (n, p, h) => hashLine (has os 'l') n p h
          let _ ← write 1 ((if has os 'l' then [] else "hits\tcommand\n") ++ lines)
      else if has os 't' then
        for name in operands do
          match (← get).hashed.lookup name with
          | some (path, _) =>
            let _ ← write 1
              (if has os 'l' then hashLine true name path 0
              else if operands.length = 1 then path ++ ['\n'] else name ++ '\t' :: path ++ ['\n'])
          | none => notFound name
      else if has os 'd' then
        for name in operands do
          if (← get).hashed.any (·.1 = name) then
            modify fun s => { s with hashed := s.hashed.filter (·.1 ≠ name) }
          else notFound name
      else
        for name in operands do
          if '/' ∉ name ∧ !isBuiltin (← get) name ∧ ((← get).function? name).isNone then
            match ← programsOf name with
            | path :: _ => modify fun s => { s with hashed := s.hashed.filter (·.1 ≠ name) ++ [(name, path, 0)] }
            | [] => notFound name

/-! Commands of the shell that are switched off. -/

def enable : Run := fun _ args =>
  withOptions "enable" { plain := "adnps", valued := "f" } args fun os operands => do
    let s ← get
    setStatus 0
    if operands = [] then
      let wanted := names.filter fun n => has os 'a' || ((n ∈ s.disabled) = has os 'n')
      let line (n : Text) : Text := (if n ∈ s.disabled then "enable -n " else "enable ").toList ++ n ++ ['\n']
      let _ ← write 1 (wanted.flatMap line)
    else
      for name in operands do
        if name ∈ names then
          modify fun s =>
            let others := s.disabled.filter (· ≠ name)
            { s with disabled := if has os 'n' then name :: others else others }
        else
          complain "enable" (name ++ ": not a shell builtin")
          setStatus 1

end Builtin

end Runbook.Shell
