import Runbook.Shell.Assignment
import Runbook.Shell.Builtin.Usage

/-!
The commands that declare variables and functions, list them, and forget them.
-/
namespace Runbook.Shell
open ShellM Kernel State

variable (s : State)

variable (e : Engine)

/-- An argument of a command that declares: a text, or a list that a name gets. -/
inductive Argument where
  | text (t : Text)
  | list (name : Text) (appends : Bool) (members : List Member)
deriving DecidableEq

namespace Argument

def word : Argument → Text
  | text t => t
  | list name _ _ => name

end Argument

namespace Builtin

/-! Lists of what is declared. -/

def functionLetters (f : Function) : Text :=
  "-f" ++ (if f.readonly then ['r'] else []) ++ (if f.traced then ['t'] else []) ++ (if f.exported then ['x'] else [])

def sortedFunctions : List (Text × Function) := s.functions.mergeSort fun a b => Text.le a.1 b.1

def functionLine (name : Text) (f : Function) : Text := functionText name f.body ++ ['\n']

def variableLines : Text :=
  (s.sorted.filter (·.2.value.isSet)).flatMap fun (name, v) => Variable.assignment name v ++ ['\n']

def functionLines : Text := (sortedFunctions s).flatMap fun (name, f) => functionLine name f

def hasLetters (letters : Text) (v : Variable) : Bool :=
  letters.all fun c =>
    match c with
    | 'a' => v.value.kind = .indexed
    | 'A' => v.value.kind = .keyed
    | 'i' => v.attributes.integer
    | 'l' => v.attributes.lower
    | 'n' => v.attributes.reference
    | 'r' => v.attributes.readonly
    | 't' => v.attributes.traced
    | 'u' => v.attributes.upper
    | 'x' => v.attributes.exported
    | 'c' => v.attributes.capital
    | _ => true

def declarationLines (vs : List (Text × Variable)) : Text :=
  vs.flatMap fun (name, v) => v.declaration name ++ ['\n']

def showNamed (cmd : Text) (functions namesOnly : Bool) : List Text → ShellM Bool
  | [] => return true
  | name :: rest => do
    if !functions then modify fun s => s.afterLooking name
    let s ← get
    let found : Option Text :=
      if functions then
        (s.function? name).map fun f =>
          if namesOnly then
            (if s.does "extdebug" then name ++ ' ' :: Text.ofNat f.line ++ ' ' :: f.file else name) ++ ['\n']
          else functionLine name f
      else
        (s.lookup? name).map fun v => v.declaration name ++ ['\n']
    match found with
    | some t =>
      let _ ← write 1 t
    | none => if !functions then complain cmd (name ++ ": not found")
    let others ← showNamed cmd functions namesOnly rest
    return found.isSome && others

/-! Declaring. -/

def changeAttributes (on off : Text) (a : Attributes) : Attributes :=
  let keep (c : Char) (old : Bool) : Bool := (old || c ∈ on) && c ∉ off
  let sizes := on.filter fun c => c == 'l' || c == 'u' || c == 'c'
  let single := sizes.eraseDups.length = 1
  let size (c : Char) (old : Bool) : Bool :=
    if sizes = [] then old && c ∉ off else single && c ∈ sizes
  { a with
    exported := keep 'x' a.exported
    integer := keep 'i' a.integer
    traced := keep 't' a.traced
    reference := keep 'n' a.reference
    lower := size 'l' a.lower
    upper := size 'u' a.upper
    capital := size 'c' a.capital }

def changeKind (on : Text) (v : Value) : Value :=
  if 'A' ∈ on then
    match v with
    | .absent _ => .absent .keyed
    | .one t => .keyed [(['0'], t)]
    | v => v
  else if 'a' ∈ on then
    match v with
    | .absent _ => .absent .indexed
    | .one t => .indexed [(0, t)]
    | v => v
  else v

/-- The value that a variable of a function starts with: it has none, unless it was set for the call. -/
def inheritedIn (name : Text) : List Scope → Option Variable
  | f :: t :: _ => if f.isFunction ∧ !t.isFunction then t.bindings.lookup name else none
  | _ => none

inductive Assigned where
  | nothing
  | text (subscript : Option Text) (appends : Bool) (t : Text)
  | list (appends : Bool) (ms : List Member)

def readArgument (d : Dialect) : Argument → Text × Assigned
  | .list name appends ms => (name, .list appends ms)
  | .text t =>
    match AssignWord.ofText? d t with
    | some w => (w.name, .text w.subscript w.appends w.value)
    | none =>
      match Text.cutAt (· == '[') t with
      | some (name, rest) => if rest.getLast? = some ']' then (name, .nothing) else (t, .nothing)
      | none => (t, .nothing)

def isReferable (t : Text) : Bool :=
  let base := t.takeWhile (· ≠ '[')
  isIdentifier base && (base = t || t.getLast? = some ']')

def giveValue (on name : Text) : Assigned → ShellM (Except Refusal Unit)
  | .nothing => return .ok ()
  | .list appends ms => Assignment.assignMembers name appends ms
  | .text subscript appends t => do
    let isListText := t.head? = some '(' && t.getLast? = some ')'
    if isListText ∧ subscript.isNone ∧ ('a' ∈ on ∨ 'A' ∈ on) then Assignment.assignList e name appends t
    else
      match ← Assignment.placeFor e ⟨name, subscript, appends, t⟩ with
      | .ok p => assignTo p appends t
      | .error r => return .error r

def declareReference (cmd name : Text) (v : Variable) (on off : Text) : Assigned → ShellM Bool
  | .text none _ target => do
    let s ← get
    if !isReferable target then
      complain cmd ("\x60" ++ target ++ "': invalid variable name for name reference")
      return false
    else if target = name ∧ !s.inFunction then
      complain cmd (name ++ ": nameref variable self references not allowed")
      return false
    else
      if target = name then
        complain cmd (circularWarning name)
        report (circularWarning name)
      modify fun s => s.put name ⟨.one target, changeAttributes on off v.attributes⟩
      return true
  | _ => do
    modify fun s => s.put name { v with attributes := changeAttributes on off v.attributes }
    return true

def declareOne (cmd on off : Text) (makesLocal : Bool) (arg : Argument) : ShellM Bool := do
  let s ← get
  let (name, assigned) := readArgument s.dialect arg
  let refuse (t : Text) : ShellM Bool := do
    complain cmd t
    return false
  if !isIdentifier name then refuse ("\x60" ++ arg.word ++ "': not a valid identifier")
  else if makesLocal ∧ (s.local? name).isNone ∧ ((s.find? name).map (·.attributes.readonly)).getD false then
    refuse (Refusal.readonly name).message
  else if makesLocal ∧ (s.local? name).isNone ∧ s.isUnassignable name then
    refuse (Refusal.unassignable name).message
  else
    if makesLocal ∧ (s.local? name).isNone then
      let start : Variable :=
        if 'I' ∈ on ∨ s.does "localvar_inherit" then (s.find? name).getD {} else (inheritedIn name s.scopes).getD {}
      set (s.putLocal name { start with attributes := { start.attributes with live := false } })
    let s ← get
    let isReference := 'n' ∈ on || 'n' ∈ off
    let target := if isReference then name else s.follow name
    let base := target.takeWhile (· ≠ '[')
    let v := (s.find? base).getD {}
    let assigns := !(assigned matches .nothing)
    if v.attributes.readonly ∧ (assigns ∨ 'r' ∈ off) then refuse (Refusal.readonly base).message
    else if 'a' ∈ on ∧ v.value.isKeyed then refuse (base ++ ": cannot convert associative to indexed array")
    else if 'A' ∈ on ∧ v.value.kind = .indexed then
      refuse (base ++ ": cannot convert indexed to associative array")
    else if ('a' ∈ off ∨ 'A' ∈ off) ∧ v.value.isList then
      refuse (base ++ ": cannot destroy array variables in this way")
    else if 'n' ∈ on then
      let ok ← declareReference cmd name v on off assigned
      if ok ∧ 'r' ∈ on then
        modify fun s =>
          s.put name { ((s.find? name).getD {}) with
            attributes := { ((s.find? name).getD {}).attributes with readonly := true } }
      return ok
    else
      let attributes := changeAttributes on off v.attributes
      modify fun s => s.put base ⟨changeKind on v.value, attributes⟩
      match ← giveValue e on target assigned with
      | .error r => refuse r.message
      | .ok () =>
        if 'r' ∈ on then
          modify fun s =>
            let v := (s.find? base).getD {}
            s.put base { v with attributes := { v.attributes with readonly := true } }
        return true

def declareEach (cmd on off : Text) (makesLocal : Bool) : List Argument → ShellM Bool
  | [] => return true
  | a :: rest => do
    let ok ← declareOne e cmd on off makesLocal a
    let others ← declareEach cmd on off makesLocal rest
    return ok && others

def declareFunctions (on off : Text) : List Text → ShellM Bool
  | [] => return true
  | name :: rest => do
    let s ← get
    match s.function? name with
    | none =>
      let _ ← declareFunctions on off rest
      return false
    | some f =>
      let f :=
        { f with
          exported := (f.exported || 'x' ∈ on) && 'x' ∉ off
          traced := (f.traced || 't' ∈ on) && 't' ∉ off
          readonly := f.readonly || 'r' ∈ on }
      set { s with functions := s.functions.map fun (n, old) => if n = name then (n, f) else (n, old) }
      declareFunctions on off rest

def finish (ok : Bool) : ShellM Unit := setStatus (if ok then 0 else 1)

def declareLetters : Letters := { plain := "aAcfFgiIlnprtux", withPlus := true }

def declareAs (cmd : Text) (args : List Argument) : ShellM Unit := do
  match scan declareLetters (args.map Argument.word) with
  | .error (.unknown o) => badOption cmd o
  | .error (.unfinished o) => missingArgument cmd o
  | .ok (os, operands) =>
    let args := args.drop (args.length - operands.length)
    let on := (os.filter fun o => !o.isOff).map (·.letter)
    let off := (os.filter (·.isOff)).map (·.letter)
    let s ← get
    let isLocal := cmd = "local"
    let functions := 'f' ∈ on || 'F' ∈ on
    let changes := (on ++ off).filter fun c => c ≠ 'f' && c ≠ 'F' && c ≠ 'p' && c ≠ 'g' && c ≠ 'I'
    if 'p' ∈ on ∧ operands ≠ [] then
      if functions then
        let showsLetters (name : Text) (f : Function) : Text :=
          (if 'F' ∈ on then [] else functionLine name f) ++ "declare " ++ functionLetters f ++ ' ' :: name ++ ['\n']
        let shown := operands.filterMap fun name => (s.function? name).map (showsLetters name)
        let _ ← write 1 shown.flatten
        finish (shown.length = operands.length)
      else finish (← showNamed cmd false false operands)
    else if operands = [] then
      if functions then
        let fs := (sortedFunctions s).filter fun (_, f) =>
          ('x' ∉ on || f.exported) && ('r' ∉ on || f.readonly) && ('t' ∉ on || f.traced)
        let line (name : Text) (f : Function) : Text := "declare " ++ functionLetters f ++ ' ' :: name ++ ['\n']
        let text := fs.flatMap fun (name, f) =>
          if 'F' ∈ on then line name f
          else functionLine name f ++ (if functionLetters f = "-f" then [] else line name f)
        writeOut cmd text
      else if isLocal then
        let own := (s.scopes.find? (·.isFunction)).map (·.bindings)
        let vs := (own.getD []).mergeSort fun a b => Text.le a.1 b.1
        writeOut cmd (declarationLines (vs.filter fun (_, v) => hasLetters changes v))
      else if on.all (· == 'I') ∧ off = [] then writeOut cmd (variableLines s ++ functionLines s)
      else writeOut cmd (declarationLines (s.sorted.filter fun (_, v) => hasLetters changes v))
    else if functions then
      if changes = [] then finish (← showNamed cmd true ('F' ∈ on) operands)
      else finish (← declareFunctions on off operands)
    else
      let run := declareEach e cmd on off (s.inFunction && 'g' ∉ on) args
      finish (← if 'g' ∈ on then inOutermost run else run)

def declareLocal (args : List Argument) : ShellM Unit := do
  let s ← get
  if !s.inFunction then
    complain "local" "can only be used in a function"
    setStatus 1
  else
    let (dashes, others) := args.partition (· = .text ['-'])
    if dashes ≠ [] then
      modify fun s => s.putLocal ['-'] { value := .one ([','].intercalate (s.settings.map Setting.name)) }
    if dashes ≠ [] ∧ others = [] then setStatus 0 else declareAs e "local" others

/-! Exported and protected variables. -/

def assignPlainly (name : Text) : Assigned → ShellM (Except Refusal Unit)
  | .text none appends t => do
    Trace.assignment e (name ++ (if appends then "+=" else "=")) t
    assignTo (.whole ((← get).follow name)) appends t
  | other => giveValue e [] name other

def markOne (cmd : Text) (kinds : Text) (change : Attributes → Attributes) (arg : Argument) :
    ShellM Bool := do
  let s ← get
  let (name, assigned) := readArgument s.dialect arg
  let written : Text :=
    match arg, assigned with
    | .text _, .text (some key) _ _ => name ++ '[' :: key ++ [']']
    | .text _, .text none _ _ | .list .., _ => name
    | .text t, _ => t
  let isElement : Bool := '[' ∈ written
  if !isIdentifier name ∨ isElement then
    complain cmd ("\x60" ++ written ++ "': not a valid identifier")
    return false
  else
    if kinds ≠ [] then
      let v := (s.find? name).getD {}
      if !v.attributes.readonly then set (s.put name { v with value := changeKind kinds v.value })
    match ← assignPlainly e name assigned with
    | .error r =>
      report r.message
      return false
    | .ok () =>
      modify fun s =>
        let target := s.follow name
        let v := (s.find? target).getD {}
        s.put target { v with attributes := change v.attributes }
      return true

def markEach (cmd kinds : Text) (change : Attributes → Attributes) : List Argument → ShellM Bool
  | [] => return true
  | a :: rest => do
    let ok ← markOne e cmd kinds change a
    let others ← markEach cmd kinds change rest
    return ok && others

def markFunctions (cmd : Text) (change : Function → Function) : List Text → ShellM Bool
  | [] => return true
  | name :: rest => do
    let s ← get
    match s.function? name with
    | some f =>
      set { s with functions := s.functions.map fun (n, old) => if n = name then (n, change f) else (n, old) }
      markFunctions cmd change rest
    | none =>
      complain cmd (name ++ ": not a function")
      let _ ← markFunctions cmd change rest
      return false

def markedLines (functions : Bool) (isMarked : Variable → Bool) (isMarkedFunction : Function → Bool) :
    Text :=
  if functions then
    ((sortedFunctions s).filter fun (_, f) => isMarkedFunction f).flatMap fun (name, f) =>
      functionLine name f ++ "declare " ++ functionLetters f ++ ' ' :: name ++ ['\n']
  else declarationLines (s.sorted.filter fun (_, v) => isMarked v)

def exportAs (args : List Argument) : ShellM Unit := do
  match scan { plain := "fnp" } (args.map Argument.word) with
  | .error (.unknown o) => badOption "export" o
  | .error (.unfinished o) => missingArgument "export" o
  | .ok (os, operands) =>
    let args := args.drop (args.length - operands.length)
    let on := !has os 'n'
    let s ← get
    if operands = [] then
      writeOut "export" (markedLines s (has os 'f') (·.attributes.exported) (·.exported))
    else if has os 'f' then
      finish (← markFunctions "export" (fun f => { f with exported := on }) operands)
    else if on then finish (← markEach e "export" [] (fun a => { a with exported := true }) args)
    else
      for a in args do
        let (name, assigned) := readArgument s.dialect a
        if (s.find? name).isSome ∨ !(assigned matches .nothing) then
          let _ ← markOne e "export" [] (fun a => { a with exported := false }) a
      setStatus 0

def readonlyAs (args : List Argument) : ShellM Unit := do
  match scan { plain := "aAfp" } (args.map Argument.word) with
  | .error (.unknown o) => badOption "readonly" o
  | .error (.unfinished o) => missingArgument "readonly" o
  | .ok (os, operands) =>
    let args := args.drop (args.length - operands.length)
    let s ← get
    let kinds := (os.map (·.letter)).filter fun c => c == 'a' || c == 'A'
    if operands = [] then
      writeOut "readonly"
        (markedLines s (has os 'f') (fun v => v.attributes.readonly && hasLetters kinds v) (·.readonly))
    else if has os 'f' then
      finish (← markFunctions "readonly" (fun f => { f with readonly := true }) operands)
    else finish (← markEach e "readonly" kinds (fun a => { a with readonly := true }) args)

def declares (name : Text) : Bool :=
  name ∈ (["declare", "typeset", "local", "export", "readonly"] : List Text)

def runDeclaring (name : Text) (args : List Argument) : ShellM Unit :=
  match String.ofList name with
  | "local" => declareLocal e args
  | "export" => exportAs e args
  | "readonly" => readonlyAs e args
  | _ => declareAs e name args

/-! Forgetting. -/

def unsetElement (name key : Text) : ShellM Bool := do
  let s ← get
  let name := s.follow name
  match s.find? name with
  | none => return true
  | some v =>
    let x := Engine.substituter e
    let put (value : Value) : ShellM Bool := do
      modify fun s => s.put name { v with value := value }
      return true
    if v.attributes.readonly then
      complain "unset" (name ++ ": cannot unset: readonly variable")
      return false
    else
      match v.value with
      | .keyed es =>
        if key = ['@'] ∨ key = ['*'] then put (.keyed (if key = ['@'] ∨ key = ['*'] then [] else es))
        else
          let k ← Expansion.singleText x key
          put (.keyed (Entries.erase k es))
      | .indexed es =>
        if key = ['@'] ∨ key = ['*'] then put (.indexed [])
        else
          let n ← evaluate (← Expansion.expressionText x key)
          match Arith.elementIndex? (← get) name n with
          | some i => put (.indexed (Elements.erase i es))
          | none =>
            complain "unset" ('[' :: key ++ "]: bad array subscript")
            return false
      | .absent .single | .one _ =>
        let n ← evaluate (← Expansion.expressionText x key)
        if n = 0 then
          modify fun s => s.erase name
          return true
        else
          complain "unset" (name ++ ": not an array variable")
          return false
      | .absent _ => return true

def unsetVariable (keepsReference : Bool) (t : Text) : ShellM (Option Bool) := do
  let s ← get
  let name := if keepsReference then t else s.follow t
  match Text.cutAt (· == '[') name with
  | some (base, rest) => return some (← unsetElement e base rest.dropLast)
  | none =>
    match s.find? name with
    | none => return none
    | some v =>
      if v.attributes.readonly then
        complain "unset" (name ++ ": cannot unset: readonly variable")
        return some false
      else if s.isUnassignable name ∧ Text.startsWith name "BASH" then
        complain "unset" (name ++ ": cannot unset")
        return some false
      else
        if name ≠ "PIPESTATUS" then modify fun s => (s.erase name).noteErasure name
        return some true

def unsetFunction (name : Text) : ShellM (Option Bool) := do
  let s ← get
  match s.function? name with
  | none => return none
  | some f =>
    if f.readonly then
      complain "unset" (name ++ ": cannot unset: readonly function")
      return some false
    else
      set { s with functions := s.functions.filter (·.1 ≠ name) }
      return some true

def isVariableText (t : Text) : Bool :=
  match Text.cutAt (· == '[') t with
  | some (name, rest) => isIdentifier name && rest.getLast? = some ']'
  | none => isIdentifier t

/-- Forgets variables or functions. What cannot be the name of a variable is that of a function, unless
a variable is asked for. -/
def unsetEach (os : List Choice) : List Text → ShellM Bool
  | [] => return true
  | t :: rest => do
    let result ←
      if has os 'f' then unsetFunction t
      else if !isVariableText t then
        if has os 'v' then
          complain "unset" ("\x60" ++ t ++ "': not a valid identifier")
          pure (some false)
        else if has os 'n' then pure none
        else unsetFunction t
      else
        match ← unsetVariable e (has os 'n') t with
        | some ok => pure (some ok)
        | none => if has os 'v' ∨ has os 'n' then pure none else unsetFunction t
    let others ← unsetEach os rest
    return result.getD true && others

def unset : Run := fun e args =>
  withOptions "unset" { plain := "fnv" } args fun os operands => do
    if has os 'f' ∧ has os 'v' then do
      complain "unset" "cannot simultaneously unset a function and a variable"
      setStatus 1
    else finish (← unsetEach e os operands)

end Builtin

end Runbook.Shell
