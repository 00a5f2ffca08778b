import Runbook.Shell.Builtin.Declare
import Runbook.Shell.FileTest

/-!
The commands that change the current directory, and the stack of directories.
-/
namespace Runbook.Shell
open ShellM Kernel

namespace Builtin

/-! Paths. -/

def foldNames : List Text → List Text → List Text
  | done, [] => done.reverse
  | done, name :: rest =>
    if name = [] ∨ name = ['.'] then foldNames done rest
    else if name = ['.', '.'] then foldNames (done.drop 1) rest
    else foldNames (name :: done) rest

/-- An absolute path as it is shown: without dots and without needless slashes. Two slashes at the
start stay. -/
def canonical (path : Text) : Text :=
  let slashes := path.takeWhile (· == '/')
  let start : Text := if slashes.length = 2 then "//" else ['/']
  start ++ ['/'].intercalate (foldNames [] (path.splitOn '/'))

def absolute (directory path : Text) : Text :=
  if path.head? = some '/' then path
  else under directory path

def physicalDirectory : ShellM Text := do
  match ← call fun pid => Sys.currentDirectory pid with
  | .ok t => return t
  | .error _ => return (← get).directory

def goTo (isPhysical : Bool) (path : Text) : ShellM (Except Fault Unit) := do
  let s ← get
  let remember (t : Text) : ShellM (Except Fault Unit) := do
    modify fun s => ({ s with directory := t }.force "OLDPWD" (s.textOf "PWD")).force "PWD" t
    return .ok ()
  let there := absolute s.directory path
  let shown := canonical there
  if isPhysical then
    match ← call fun pid => Sys.chdir pid there with
    | .ok () => remember (← physicalDirectory)
    | .error f => return .error f
  else
    match ← call fun pid => Sys.chdir pid (if path = [] then ['.'] else shown) with
    | .ok () => remember shown
    | .error _ =>
      match ← call fun pid => Sys.chdir pid path with
      | .ok () => remember (← physicalDirectory)
      | .error f => return .error f

/-! The current directory. -/

def searchDirectories (isPhysical : Bool) (path : Text) : List Text → ShellM Bool
  | [] => return false
  | dir :: rest => do
    let candidate := if dir = [] then path else under dir path
    match ← goTo isPhysical candidate with
    | .ok () => do
      if dir ≠ [] then
        let _ ← write 1 ((← get).directory ++ ['\n'])
      return true
    | .error _ => searchDirectories isPhysical path rest

def isDotted (path : Text) : Bool :=
  match path.splitOn '/' with
  | first :: _ => (first = [] && path ≠ []) || first = ['.'] || first = ['.', '.']
  | [] => false

def changeDirectory (cmd : Text) (isPhysical : Bool) (path : Text) : ShellM Bool := do
  let s ← get
  let found ←
    match s.text? "CDPATH" with
    | some t => if t ≠ [] ∧ !isDotted path then searchDirectories isPhysical path (t.splitOn ':') else pure false
    | none => pure false
  if found then return true
  else
    match ← goTo isPhysical path with
    | .ok () => return true
    | .error f =>
      complain cmd (path ++ ": " ++ f.message)
      return false

def cd : Run := fun _ args =>
  withOptions "cd" { plain := "LPe@" } args fun os operands => do
    let s ← get
    let isPhysical :=
      match (os.filter fun o => o.letter == 'L' || o.letter == 'P').getLast? with
      | some o => o.letter == 'P'
      | none => s.isOn .physical
    let refuse (t : Text) : ShellM Unit := do
      complain "cd" t
      setStatus 1
    match operands with
    | [] =>
      match s.text? "HOME" with
      | none => refuse "HOME not set"
      | some home => finish (← changeDirectory "cd" isPhysical home)
    | [['-']] =>
      match s.text? "OLDPWD" with
      | none => refuse "OLDPWD not set"
      | some old =>
        let ok ← changeDirectory "cd" isPhysical old
        if ok then
          let _ ← write 1 ((← get).directory ++ ['\n'])
        finish ok
    | [path] => finish (← changeDirectory "cd" isPhysical path)
    | _ => refuse "too many arguments"

def pwd : Run := fun _ args =>
  withOptions "pwd" { plain := "LP" } args fun os _ => do
    let s ← get
    let isPhysical := (os.getLast?.map (·.letter == 'P')).getD (s.isOn .physical)
    let t ← if isPhysical then physicalDirectory else pure s.directory
    writeOut "pwd" (t ++ ['\n'])

/-! The stack of directories. -/

def politely (s : State) (t : Text) : Text :=
  match s.text? "HOME" with
  | some home =>
    if home = [] then t
    else if t = home then ['~']
    else if home ≠ ['/'] ∧ Text.startsWith t (home ++ ['/']) then '~' :: t.drop home.length
    else t
  | none => t

def stackText (s : State) (isLong : Bool) : Text :=
  [' '].intercalate (s.directoryStack.map fun t => if isLong then t else politely s t) ++ ['\n']

def showStack : ShellM Unit := do
  let _ ← write 1 (stackText (← get) false)

def stackIndex? (t : Text) (size : Nat) : Option (Except Unit Nat) :=
  match t with
  | sign :: ds =>
    if (sign = '+' ∨ sign = '-') ∧ ds ≠ [] ∧ ds.all Char.isDigit then
      let n := State.decimal ds
      if sign = '+' then some (if n < size then .ok n else .error ())
      else some (if n < size then .ok (size - 1 - n) else .error ())
    else none
  | [] => none

def outOfRange (cmd t : Text) : ShellM Unit := do
  let s ← get
  complain cmd (if s.directories = [] then "directory stack empty" else t ++ ": directory stack index out of range")
  setStatus 1

def rotate (n : Nat) (ts : List Text) : List Text := ts.drop n ++ ts.take n

def enterStack (cmd : Text) (stays : Bool) (stack : List Text) : ShellM Unit := do
  match stack with
  | [] => setStatus 1
  | top :: rest =>
    if stays then
      modify fun s => { s with directories := rest }
      showStack
      setStatus 0
    else
      if ← changeDirectory cmd false top then
        modify fun s => { s with directories := rest }
        showStack
        setStatus 0
      else setStatus 1

def stackOptions : List Text → Bool × List Text
  | ['-', 'n'] :: rest => (true, (stackOptions rest).2)
  | ['-', '-'] :: rest => (false, rest)
  | args => (false, args)

def badPlace (cmd t : Text) : ShellM Unit := do
  complain cmd (t ++ ": invalid number")
  showUsage cmd

def isSigned (t : Text) : Bool := 2 ≤ t.length && (t.head? = some '+' || t.head? = some '-')

def pushd : Run := fun _ args => do
  let s ← get
  let (stays, operands) := stackOptions args
  let stack := s.directoryStack
  match operands with
  | [] =>
    match s.directories with
    | [] =>
      complain "pushd" "no other directory"
      setStatus 1
    | next :: rest => enterStack "pushd" stays (next :: s.directory :: rest)
  | [t] =>
    match stackIndex? t stack.length with
    | some (.ok n) => enterStack "pushd" stays (rotate n stack)
    | some (.error ()) => outOfRange "pushd" t
    | none =>
      if isSigned t then badPlace "pushd" t
      else if stays then
        modify fun s => { s with directories := t :: s.directories }
        showStack
        setStatus 0
      else
        let path := if t = ['-'] then s.textOf "OLDPWD" else t
        if ← changeDirectory "pushd" false path then
          modify fun now => { now with directories := s.directory :: s.directories }
          showStack
          setStatus 0
        else setStatus 1
  | _ =>
    complain "pushd" "too many arguments"
    setStatus 1

def popd : Run := fun _ args => do
  let s ← get
  let (stays, operands) := stackOptions args
  let stack := s.directoryStack
  let remove (n : Nat) : ShellM Unit := do
    if s.directories = [] then outOfRange "popd" []
    else if n = 0 ∧ !stays then enterStack "popd" false s.directories
    else
      let n := if n = 0 then 1 else n
      modify fun s => { s with directories := s.directories.eraseIdx (n - 1) }
      showStack
      setStatus 0
  match operands with
  | [] => remove 0
  | t :: _ =>
    match stackIndex? t stack.length with
    | some (.ok n) => remove n
    | some (.error ()) => outOfRange "popd" t
    | none =>
      if isSigned t then badPlace "popd" t
      else
        complain "popd" (t ++ ": invalid argument")
        showUsage "popd"

def dirsOptions : List Text → Text × Option Text × Option Text
  | [] => ([], none, none)
  | t :: rest =>
    let (letters, place, bad) := dirsOptions rest
    match t with
    | '-' :: c :: ls =>
      if (c :: ls).all fun x => x ∈ ("clpv" : Text) then (c :: ls ++ letters, place, bad)
      else if (c :: ls).all Char.isDigit then (letters, some t, bad)
      else (letters, place, some t)
    | '+' :: _ => if (stackIndex? t 0).isSome then (letters, some t, bad) else (letters, place, some t)
    | _ => (letters, place, some t)

def dirs : Run := fun _ args => do
  let s ← get
  let (letters, place, bad) := dirsOptions args
  let isLong := 'l' ∈ letters
  let shown (t : Text) : Text := if isLong then t else politely s t
  let stack := s.directoryStack
  match bad, place with
  | some t, _ => badPlace "dirs" t
  | none, some t =>
    match stackIndex? t stack.length with
    | some (.ok n) => writeOut "dirs" (shown (stack.getD n []) ++ ['\n'])
    | _ => outOfRange "dirs" t
  | none, none =>
    if 'c' ∈ letters then
      modify fun s => { s with directories := [] }
      setStatus 0
    else if 'v' ∈ letters then
      let line (t : Text) (i : Nat) : Text :=
        let n := Text.ofNat i
        List.replicate (2 - n.length) ' ' ++ n ++ ' ' :: ' ' :: shown t ++ ['\n']
      writeOut "dirs" ((stack.zipIdx).flatMap fun (t, i) => line t i)
    else if 'p' ∈ letters then writeOut "dirs" (stack.flatMap fun t => shown t ++ ['\n'])
    else writeOut "dirs" (stackText s isLong)

end Builtin

end Runbook.Shell
