import Runbook.Shell.Builtin.Declare

/-!
The commands that switch settings and behaviours of the shell.
-/
namespace Runbook.Shell
open ShellM Kernel

namespace Builtin

def optionLine (name : Text) (on : Bool) : Text :=
  name ++ List.replicate (15 - name.length) ' ' ++ '\t' :: (if on then "on" else "off").toList ++ ['\n']

def settingLines (s : State) (asCommands : Bool) : Text :=
  Setting.all.flatMap fun x =>
    if asCommands then "set " ++ (if s.isOn x then "-o " else "+o ").toList ++ x.name ++ ['\n']
    else optionLine x.name (s.isOn x)

def settingLetters : Text := "abefhkmnptuvxBCEHPTo"

def badSetting? : List Text → Option Text
  | [] => none
  | t :: rest =>
    match t with
    | '-' :: '-' :: [] => none
    | sign :: c :: ls =>
      if sign = '-' ∨ sign = '+' then
        match (c :: ls).find? (· ∉ settingLetters) with
        | some bad => some [sign, bad]
        | none =>
          match (c :: ls).contains 'o', rest with
          | true, _ :: more => badSetting? more
          | _, rest => badSetting? rest
      else none
    | _ => none

def turnSetting (x : Setting) (on : Bool) : ShellM Unit :=
  modify fun s =>
    let s := s.turn x on
    match x, on with
    | .vi, true => s.turn .emacs false
    | .emacs, true => s.turn .vi false
    | .posix, true => if (s.find? "POSIXLY_CORRECT").isNone then s.force "POSIXLY_CORRECT" "y" else s
    | .posix, false => s.erase "POSIXLY_CORRECT"
    | .ignoreeof, true => s.force "IGNOREEOF" "10"
    | .ignoreeof, false => s.erase "IGNOREEOF"
    | _, _ => s

def switchBehaviour (s : State) (name : Text) (on : Bool) : State :=
  match ("compat".toList.isPrefixOf? name) with
  | some version =>
    if on then (s.behaveAs version).force "BASH_COMPAT" version
    else if s.does name then (s.behaveAs "52").force "BASH_COMPAT" "52"
    else s
  | none => s.switch name on

def turnLetters (on : Bool) : Text → List Text → ShellM (Option (List Text))
  | [], rest => return some rest
  | 'o' :: ls, rest => do
    let s ← get
    match rest with
    | name :: more =>
      if name = [] ∨ name.head? = some '-' ∨ name.head? = some '+' then
        let _ ← write 1 (settingLines s (!on))
        turnLetters on ls rest
      else
        match Setting.ofName? name with
        | some x =>
          turnSetting x on
          turnLetters on ls more
        | none =>
          complain "set" (name ++ ": invalid option name")
          setStatus 2
          return none
    | [] =>
      let _ ← write 1 (settingLines s (!on))
      turnLetters on ls rest
  | c :: ls, rest => do
    match Setting.ofLetter? c with
    | some x => turnSetting x on
    | none => pure ()
    turnLetters on ls rest

/-- Switches settings and sets the arguments of the shell; `fuel` is more than the number of words. -/
def turnSettings : Nat → List Text → ShellM Unit
  | 0, _ => return ()
  | _, [] => return ()
  | fuel + 1, t :: rest => do
    let remember (args : List Text) : ShellM Unit := modify fun s => { s with arguments := args }
    match t with
    | ['-', '-'] => remember rest
    | ['-'] => do
      modify fun s => (s.turn .xtrace false).turn .verbose false
      if rest ≠ [] then remember rest
    | sign :: c :: ls =>
      if sign = '-' ∨ sign = '+' then
        match ← turnLetters (sign = '-') (c :: ls) rest with
        | some rest => turnSettings fuel rest
        | none => return ()
      else remember (t :: rest)
    | _ => remember (t :: rest)

def set : Run := fun _ args => do
  let s ← get
  if args = [] then writeOut "set" (variableLines s ++ functionLines s)
  else
    match badSetting? args with
    | some o => badOption "set" o
    | none =>
      setStatus 0
      turnSettings (args.length + 1) args

def showBehaviours (isOn : Text → Bool) (line : Text → Bool → Text) (names : List Text) : Text × Bool :=
  (names.flatMap fun n => line n (isOn n), names.all isOn)

def shopt : Run := fun _ args =>
  withOptions "shopt" { plain := "opqsu" } args fun os operands => do
    let s ← get
    let ofSettings := has os 'o'
    let isKnown (n : Text) : Bool := if ofSettings then (Setting.ofName? n).isSome else n ∈ Behaviour.all
    let isOn (n : Text) : Bool := if ofSettings then (Setting.ofName? n).any s.isOn else s.does n
    let line (n : Text) (on : Bool) : Text :=
      if has os 'q' then []
      else if has os 'p' then
        (if ofSettings then (if on then "set -o " else "set +o ") else if on then "shopt -s " else "shopt -u ").toList ++
          n ++ ['\n']
      else optionLine n on
    let unknown (n : Text) : ShellM Unit :=
      complain "shopt" (n ++ (if ofSettings then ": invalid option name" else ": invalid shell option name").toList)
    if has os 's' ∧ has os 'u' then
      complain "shopt" "cannot set and unset shell options simultaneously"
      setStatus 1
    else if operands = [] then
      let all := if ofSettings then Setting.all.map Setting.name else Behaviour.all
      let wanted := all.filter fun n => if has os 's' then isOn n else if has os 'u' then !isOn n else true
      writeOut "shopt" (showBehaviours isOn line wanted).1
    else if has os 's' ∨ has os 'u' then
      let on := has os 's'
      setStatus 0
      for n in operands do
        if isKnown n then
          match ofSettings, Setting.ofName? n with
          | true, some x => turnSetting x on
          | _, _ => modify fun s => switchBehaviour s n on
        else
          unknown n
          setStatus 1
    else
      for n in operands.filter fun n => !isKnown n do
        unknown n
      let known := operands.filter isKnown
      let (text, allOn) := showBehaviours isOn line known
      let _ ← write 1 text
      setStatus (if allOn ∧ known.length = operands.length then 0 else 1)

end Builtin

end Runbook.Shell
