import Runbook.Kernel.Signal
import Runbook.Shell.Options
import Runbook.Shell.Syntax
import Runbook.Shell.Variable

/-!
The state of one shell process, of which a subshell gets a copy, and how variables are found and set
in it.
-/
namespace Runbook.Shell
open Kernel

/-- Variables that come and go together: those of a function, those set for one command, or the ones
that always stay. The newest variable comes first. -/
structure Scope where
  isFunction : Bool := false
  bindings : List (Text × Variable) := []

structure Function where
  body : Command
  line : Nat
  base : Nat
  file : Text
  exported : Bool := false
  readonly : Bool := false
  traced : Bool := false

/-- A function or file that is being run, and the line it was called from. -/
structure Frame where
  name : Text
  line : Nat
  file : Text
  isFunction : Bool

inductive JobState where
  | running
  | ended (e : Ending)
deriving DecidableEq

structure Job where
  number : Nat
  pids : List Nat
  text : Text
  state : JobState := .running
  isBackground : Bool := true
  isDisowned : Bool := false

inductive Occasion where
  | leaving
  | before
  | error
  | returning
  | signal (n : Nat)
deriving DecidableEq

abbrev Traps := List (Occasion × Text)

structure State where
  pid : Nat
  mainPid : Nat
  parentPid : Nat := 1
  name : Text
  scopes : List Scope
  functions : List (Text × Function) := []
  arguments : List Text := []
  settings : List Setting := Setting.initial
  behaviours : List Text := Behaviour.initial
  isCommandText : Bool := false
  readsInput : Bool := false
  commandText : Text := []
  commandName : Text := []
  label : Text := []
  status : Nat := 0
  pipeStatus : List Nat := []
  background : Option Nat := none
  line : Nat := 0
  errorLine : Nat := 0
  frames : List Frame := []
  traps : Traps := []
  inheritedTraps : Traps := []
  ignoredAtStart : List Nat := []
  runningTrap : Bool := false
  jobs : List Job := []
  directories : List Text := []
  directory : Text := []
  ignoresErrors : Bool := false
  loops : Nat := 0
  depth : Nat := 0
  level : Nat := 1
  isSubshell : Bool := false
  deepens : Bool := false
  isLevel : Bool := false
  started : Int := 0
  now : Nat := 0
  seed : Nat := 1
  lastRandom : Nat := 0
  aliases : List (Text × Text) := []
  disabled : List Text := []
  optionPlace : Nat := 0
  hashed : List (Text × Text × Nat) := []
  substituted : Option Nat := none
  ended : List (Nat × Nat) := []
  commandReports : Bool := false
  opened : List Nat := []
  limits : List (Char × Text) := []
  coprocesses : List (Nat × Text) := []
  closed : List Nat := []
  notes : List Text := []

variable (s : State)

namespace State

def isOn (x : Setting) : Bool := x ∈ s.settings

def does (name : Text) : Bool := name ∈ s.behaviours

def turn (x : Setting) (on : Bool) : State :=
  let others := s.settings.filter (· ≠ x)
  { s with settings := if on then x :: others else others }

def switch (name : Text) (on : Bool) : State :=
  let others := s.behaviours.filter (· ≠ name)
  { s with behaviours := if on then name :: others else others }

def settingLetters : Text :=
  (Setting.letters.filterMap fun (c, x) => if s.isOn x then some c else none) ++
    (if s.isCommandText then ['c'] else []) ++ (if s.readsInput then ['s'] else [])

def file : Text :=
  match s.frames with
  | f :: _ => if f.file = [] then s.name else f.file
  | [] => s.name

def function? (name : Text) : Option Function := s.functions.lookup name

/-! Variables. -/

def findIn (name : Text) : List Scope → Option Variable
  | [] => none
  | scope :: outer => (scope.bindings.lookup name).or (findIn name outer)

def find? (name : Text) : Option Variable := findIn name s.scopes

def putFirst (name : Text) (v : Variable) (vs : List (Text × Variable)) : List (Text × Variable) :=
  if vs.any (·.1 = name) then vs.map fun (n, old) => if n = name then (n, v) else (n, old)
  else (name, v) :: vs

def putIn (name : Text) (v : Variable) : List Scope → List Scope
  | [] => [{ bindings := [(name, v)] }]
  | [scope] => [{ scope with bindings := putFirst name v scope.bindings }]
  | scope :: outer =>
    if scope.bindings.any (·.1 = name) then { scope with bindings := putFirst name v scope.bindings } :: outer
    else scope :: putIn name v outer

def put (name : Text) (v : Variable) : State := { s with scopes := putIn name v s.scopes }

def putGlobal (name : Text) (v : Variable) : State :=
  { s with scopes := s.scopes.dropLast ++ putIn name v (s.scopes.drop (s.scopes.length - 1)) }

def putLocalIn (name : Text) (v : Variable) : List Scope → List Scope
  | [] => []
  | scope :: outer =>
    if scope.isFunction then { scope with bindings := putFirst name v scope.bindings } :: outer
    else scope :: putLocalIn name v outer

def putLocal (name : Text) (v : Variable) : State :=
  { s with scopes := putLocalIn name v s.scopes }

def localIn (name : Text) : List Scope → Option Variable
  | [] => none
  | scope :: outer => if scope.isFunction then scope.bindings.lookup name else localIn name outer

def local? (name : Text) : Option Variable := localIn name s.scopes

def inFunction : Bool := s.scopes.any (·.isFunction)

def eraseIn (name : Text) : List Scope → List Scope
  | [] => []
  | scope :: outer =>
    if scope.bindings.any (·.1 = name) then
      { scope with bindings := scope.bindings.filter (·.1 ≠ name) } :: outer
    else scope :: eraseIn name outer

def hasLocal (name : Text) : List Scope → Bool
  | [] => false
  | scope :: outer => (scope.isFunction && scope.bindings.any (·.1 = name)) || hasLocal name outer

/-- Forgets a variable where it is defined. One of the function that is being run stays without a
value, so that it goes on to hide others. -/
def erase (name : Text) : State :=
  match s.scopes with
  | scope :: outer =>
    if scope.isFunction ∧ scope.bindings.any (·.1 = name) then
      { s with scopes := { scope with bindings := putFirst name {} scope.bindings } :: outer }
    else if s.does "localvar_unset" ∧ hasLocal name s.scopes then { s with scopes := putIn name {} s.scopes }
    else { s with scopes := eraseIn name s.scopes }
  | [] => s

def nextSeed (seed : Nat) : Nat :=
  let x := if seed = 0 then 123459876 else seed
  let h := x / 127773
  let l := x - 127773 * h
  let t : Int := 16807 * (l : Int) - 2836 * (h : Int)
  (if t < 0 then t + 2147483647 else t).toNat

def drawRandom : Nat → Nat → Nat → Nat × Nat
  | 0, seed, last => (seed, last)
  | fuel + 1, seed, last =>
    let seed := nextSeed seed
    let n := ((seed / 65536) ^^^ (seed % 65536)) % 32768
    if n = last then drawRandom fuel seed last else (seed, n)

def pad6 (n : Nat) : Text := List.replicate (6 - (Text.ofNat n).length) '0' ++ Text.ofNat n

def directoryStack : List Text := s.directory :: s.directories

def computed? (name : Text) : Option Value :=
  match String.ofList name with
  | "LINENO" => some (.one (Text.ofNat s.line))
  | "RANDOM" => some (.one (Text.ofNat (drawRandom 100 s.seed s.lastRandom).2))
  | "SRANDOM" => some (.one (Text.ofNat (nextSeed (s.seed + 77777))))
  | "SECONDS" => some (.one (Text.ofInt (((s.now : Int) - s.started).fdiv 1000)))
  | "EPOCHSECONDS" => some (.one (Text.ofNat (s.now / 1000)))
  | "EPOCHREALTIME" => some (.one (Text.ofNat (s.now / 1000) ++ '.' :: pad6 (s.now % 1000 * 1000)))
  | "BASHPID" => some (.one (Text.ofNat s.pid))
  | "BASH_ARGV0" => some (.one s.name)
  | "BASH_SUBSHELL" => some (.one (Text.ofNat s.depth))
  | "BASH_COMMAND" => some (.one s.commandName)
  | "COMP_WORDBREAKS" => some (.one " \t\n\"'@><=;|&(:")
  | "FUNCNAME" =>
    if s.frames.any (·.isFunction) then some (.indexed (Elements.ofList (s.frames.map (·.name)))) else none
  | "BASH_SOURCE" => some (.indexed (Elements.ofList (s.frames.map (·.file))))
  | "BASH_LINENO" => some (.indexed (Elements.ofList (s.frames.map fun f => Text.ofNat f.line)))
  | "PIPESTATUS" => some (.indexed (Elements.ofList (s.pipeStatus.map Text.ofNat)))
  | "DIRSTACK" => some (.indexed (Elements.ofList s.directoryStack))
  | "GROUPS" => some (.indexed [(0, ['0'])])
  | "SHELLOPTS" => some (.one ([':'].intercalate ((Setting.all.filter s.isOn).map Setting.name)))
  | "BASHOPTS" => some (.one ([':'].intercalate (Behaviour.all.filter s.does)))
  | "BASH_ALIASES" => some (.keyed (s.aliases.foldl (fun es (k, v) => Entries.put k v es) []))
  | "BASH_CMDS" => some (.keyed (s.hashed.foldl (fun es (k, v, _) => Entries.put k v es) []))
  | "HISTCMD" => some (.one ['0'])
  | _ => none

def isLazy (name : Text) : Bool :=
  name ∉ (["FUNCNAME", "BASH_SOURCE", "BASH_LINENO", "PIPESTATUS", "SHELLOPTS", "BASHOPTS"] : List Text)

def isTold (name : Text) : Bool :=
  name ∈ (["FUNCNAME", "GROUPS", "BASH_ARGC", "BASH_ARGV", "BASH_SOURCE", "BASH_LINENO"] : List Text)

def isLive (name : Text) : Bool := ((s.find? name).map (·.attributes.live)).getD false

def isUnassignable (name : Text) : Bool := isTold name && s.isLive name

def isThere (name : Text) : Bool := name ≠ "PIPESTATUS" || s.pipeStatus ≠ []

def afterLooking (name : Text) : State :=
  match s.find? name with
  | some v =>
    if v.attributes.live ∧ isLazy name then
      let v := if name = "SECONDS" then { v with attributes := { v.attributes with integer := true } } else v
      let s := s.put name { v with value := (s.computed? name).getD v.value }
      if name = "RANDOM" then
        let (seed, n) := drawRandom 100 s.seed s.lastRandom
        { s with seed := seed, lastRandom := n }
      else s
    else s
  | none => s

def referenceLimit : Nat := 8

def followFrom : Nat → Text → Text
  | 0, name => name
  | fuel + 1, name =>
    match s.find? name with
    | some ⟨.one target, a⟩ =>
      if a.reference ∧ target ≠ [] ∧ target ≠ name then followFrom fuel target else name
    | _ => name

def follow (name : Text) : Text := followFrom s referenceLimit name

def circlesFrom (start : Text) : Nat → Text → Bool
  | 0, _ => false
  | fuel + 1, name =>
    match s.find? name with
    | some ⟨.one target, a⟩ => a.reference && (target = start || circlesFrom start fuel target)
    | _ => false

def isCircular (name : Text) : Bool := circlesFrom s name referenceLimit name

def global? (name : Text) : Option Variable := (s.scopes.getLast?.bind (·.bindings.lookup name))

def lookup? (name : Text) : Option Variable :=
  match s.find? name with
  | some v =>
    if v.attributes.live then
      if s.isThere name then some { v with value := (s.computed? name).getD v.value } else none
    else some v
  | none => none

def text? (name : Text) : Option Text :=
  (s.lookup? (s.follow name)).bind (·.value.text?)

def textOf (name : Text) : Text := (s.text? name).getD []

def dividers : Text :=
  match s.find? "IFS" with
  | some v => v.value.text?.getD " \t\n"
  | none => " \t\n"

/-! Assignments. -/

inductive Refusal where
  | readonly (name : Text)
  | badName (text : Text)
  | badSubscript (text : Text)
  | needsSubscript (name key : Text)
  | listIntoElement (text : Text)
  | unassignable (name : Text)

def Refusal.message : Refusal → Text
  | readonly name => name ++ ": readonly variable"
  | badName t => "\x60" ++ t ++ "': not a valid identifier"
  | badSubscript t => t ++ ": bad array subscript"
  | needsSubscript name key => name ++ ": " ++ key ++ ": must use subscript when assigning associative array"
  | listIntoElement t => t ++ ": cannot assign list to array member"
  | unassignable name => name ++ ": variable may not be assigned value"

def assignedNumber (t : Text) : Int :=
  let digits (ds : Text) : Int := if ds ≠ [] ∧ ds.all Char.isDigit then (valueOf 10 ds : Int) else 0
  match t with
  | '-' :: ds => -digits ds
  | '+' :: ds => digits ds
  | ds => digits ds

def olderVersions : List Text := ["31", "32", "40", "41", "42", "43", "44"]

def version? (t : Text) : Option Text :=
  let digits := match t with | [a, '.', b] => [a, b] | t => t
  if digits ∈ olderVersions ∨ digits ∈ (["50", "51", "52"] : List Text) then some digits else none

def behaveAs (version : Text) : State :=
  olderVersions.foldl (fun s v => s.switch ("compat" ++ v) (v = version)) s

def noteLive (name t : Text) : State :=
  match String.ofList name with
  | "RANDOM" => { s with seed := (assignedNumber t % 4294967296).toNat, lastRandom := 0 }
  | "SECONDS" => { s with started := s.now - 1000 * assignedNumber t }
  | "LINENO" => { s with line := (assignedNumber t).toNat }
  | "BASH_SUBSHELL" => { s with depth := (assignedNumber t).toNat }
  | "BASH_ARGV0" => { s with name := t }
  | _ => s

def noteAssignment (name t : Text) : State :=
  let s := if s.isLive name then s.noteLive name t else s
  match String.ofList name with
  | "PATH" => { s with hashed := [] }
  | "OPTIND" => { s with optionPlace := 0 }
  | "POSIXLY_CORRECT" => s.turn .posix true
  | "IGNOREEOF" => s.turn .ignoreeof true
  | "GLOBIGNORE" => if t ≠ [] then s.switch "dotglob" true else s
  | "BASH_COMPAT" => s.behaveAs ((version? t).getD "52")
  | _ => s

def noteErasure (name : Text) : State :=
  match String.ofList name with
  | "POSIXLY_CORRECT" => s.turn .posix false
  | "IGNOREEOF" => s.turn .ignoreeof false
  | "GLOBIGNORE" => s.switch "dotglob" false
  | "BASH_COMPAT" => s.behaveAs "52"
  | _ => s

def heldBy (name : Text) : Value := ((s.find? name).map (·.value)).getD (.absent .single)

def attributesFor (name : Text) : Attributes :=
  let a := ((s.find? name).map (·.attributes)).getD {}
  if s.isOn .allexport then { a with exported := true } else a

/-- Sets a value, in letters of the declared size. Of a list, the element with number or key zero is
set. -/
def setText (name t : Text) : Except Refusal State :=
  let a := s.attributesFor name
  if a.readonly then .error (.readonly name)
  else if s.isUnassignable name then .ok s
  else
    let t := Variable.sized a t
    let old := s.heldBy name
    let value : Value :=
      match old.kind with
      | .single => .one t
      | .indexed => .indexed (Elements.put 0 t old.elements)
      | .keyed => .keyed (Entries.put ['0'] t old.entries)
    .ok ((s.noteAssignment name t).put name ⟨value, a⟩)

def setElement (name : Text) (i : Nat) (t : Text) : Except Refusal State :=
  let a := s.attributesFor name
  if a.readonly then .error (.readonly name)
  else if s.isUnassignable name then .ok s
  else if a.live ∧ name = "DIRSTACK" then
    .ok { s with directories := if i = 0 then s.directories else s.directories.set (i - 1) t }
  else
    let old := s.heldBy name
    .ok (s.put name ⟨.indexed (Elements.put i (Variable.sized a t) old.elements), a⟩)

def setEntry (name key t : Text) : Except Refusal State :=
  let a := s.attributesFor name
  if a.readonly then .error (.readonly name)
  else if a.live ∧ name = "BASH_ALIASES" then
    .ok { s with aliases := (key, t) :: s.aliases.filter (·.1 ≠ key) }
  else if a.live ∧ name = "BASH_CMDS" then
    .ok { s with hashed := (key, t, 0) :: s.hashed.filter (·.1 ≠ key) }
  else
    let old := s.heldBy name
    .ok (s.put name ⟨.keyed (Entries.put key (Variable.sized a t) old.entries), a⟩)

def setValue (name : Text) (v : Value) : Except Refusal State :=
  let a := s.attributesFor name
  if a.readonly then .error (.readonly name)
  else if s.isUnassignable name then .error (.unassignable name)
  else .ok (s.put name ⟨v, a⟩)

def force (name t : Text) : State := s.put name ⟨.one t, s.attributesFor name⟩

/-! What others see of the variables. -/

def inHandingOrder (vs : List (Text × Variable)) : List (Text × Variable) :=
  vs.mergeSort fun a b => Entries.bucket a.1 ≤ Entries.bucket b.1

def visibleIn : List Scope → List Text → List (Text × Variable)
  | [], _ => []
  | scope :: outer, seen =>
    let fresh := scope.bindings.filter (·.1 ∉ seen)
    inHandingOrder fresh ++ visibleIn outer (fresh.map (·.1) ++ seen)

def visible : List (Text × Variable) := visibleIn s.scopes []

def sorted : List (Text × Variable) :=
  let there := s.visible.filter fun (name, v) => !v.attributes.live || s.isThere name
  (there.mergeSort fun a b => Text.le a.1 b.1).map fun (name, v) =>
    (name, if v.attributes.live ∧ !isLazy name then { v with value := (s.computed? name).getD v.value } else v)

end State

end Runbook.Shell
