import Runbook.Program.Editor.Reader
import Runbook.Program.Lines

/-!
The program that edits a stream of lines by a script.
-/
namespace Runbook.Program
open Kernel
open Shell (Regex)

namespace Editor

/-! Substitution. -/

structure Casing where
  all : Recasing := .asIs
  next : Recasing := .asIs

def Casing.apply (c : Casing) (t : Text) : Text × Casing :=
  let whole (t : Text) : Text :=
    match c.all with
    | .allUpper => t.map Char.toUpper
    | .allLower => t.map Char.toLower
    | _ => t
  match c.next, t with
  | .nextUpper, x :: rest => (x.toUpper :: whole rest, { c with next := .asIs })
  | .nextLower, x :: rest => (x.toLower :: whole rest, { c with next := .asIs })
  | _, _ => (whole t, c)

def replacement (group : Nat → Text) : Casing → List Part → Text
  | _, [] => []
  | c, .recase r :: rest =>
    replacement group (match r with
      | .nextUpper | .nextLower => { c with next := r }
      | .asIs => {}
      | _ => { c with all := r }) rest
  | c, .text t :: rest =>
    let (shown, c) := c.apply t
    shown ++ replacement group c rest
  | c, .group n :: rest =>
    let (shown, c) := c.apply (group n)
    shown ++ replacement group c rest

/-- Replaces matches from a place on, of which `count` have gone by. An empty match right behind another
one does not count. -/
def substituteFrom (e : Regex) (s : Regex.Subject) (x : Substitution) :
    Nat → Nat → Nat → Option Nat → Text → Text × Bool → Text × Bool
  | 0, _, i, _, _, (out, done) => (out ++ s.slice i s.text.size, done)
  | fuel + 1, count, i, last, _, (out, done) =>
    match e.search s i with
    | none => (out ++ s.slice i s.text.size, done)
    | some (a, b, groups) =>
      let before := out ++ s.slice i a
      if a = b ∧ last = some a then
        if a < s.text.size then
          substituteFrom e s x fuel count (a + 1) none [] (before ++ s.slice a (a + 1), done)
        else (before, done)
      else
        let count := count + 1
        let group (n : Nat) : Text :=
          if n = 0 then s.slice a b else ((groups.lookup n).map fun (p, q) => s.slice p q).getD []
        let replaces := x.nth ≤ count
        let shown := if replaces then replacement group {} x.parts else s.slice a b
        let done := done || replaces
        if replaces ∧ !x.isGlobal then (before ++ shown ++ s.slice b s.text.size, true)
        else if a = b then
          if a < s.text.size then
            substituteFrom e s x fuel count (a + 1) none [] (before ++ shown ++ s.slice a (a + 1), done)
          else (before ++ shown, done)
        else substituteFrom e s x fuel count b (some b) [] (before ++ shown, done)

def subjectOf (w : Search) (t : Text) : Regex.Subject :=
  { text := t.toArray, foldsCase := w.foldsCase, byLines := w.byLines }

def substituted (w : Search) (x : Substitution) (t : Text) : Text × Bool :=
  let s := subjectOf w t
  match w.regex.search s 0 with
  | none => (t, false)
  | some _ => substituteFrom w.regex s x (2 * t.length + 4) 0 0 none [] ([], false)

/-! Text that can be seen. -/

def listedChar (c : Char) : Text :=
  match c with
  | '\\' => "\\\\"
  | '\x07' => "\\a"
  | '\x08' => "\\b"
  | '\x0c' => "\\f"
  | '\n' => "\\n"
  | '\r' => "\\r"
  | '\t' => "\\t"
  | '\x0b' => "\\v"
  | c =>
    if 32 ≤ c.toNat ∧ c.toNat < 127 then [c]
    else
      let ds := Nat.toDigits 8 c.toNat
      '\\' :: List.replicate (3 - ds.length) '0' ++ ds

def wrapped (width : Nat) : Nat → List Text → Text
  | _, [] => "$\n"
  | used, t :: rest =>
    if 1 < width ∧ width - 1 < used + t.length then '\\' :: '\n' :: t ++ wrapped width t.length rest
    else t ++ wrapped width (used + t.length) rest

/-! The state of a run. -/

inductive RangeState where
  | inactive
  | active (stop : Option Nat)
  | closed
deriving DecidableEq

inductive Queued where
  | text (t : Text)
  | file (path : Text)

/-- A file that is written, and whether its last line lacks an end. -/
structure Output where
  path : Text
  fd : Nat
  lacksEnd : Bool := false

/-- Lines as they come in: the files that are left, the open one, and what has been read of it. -/
structure Incoming where
  files : List Text
  name : Text := ['-']
  fd : Option Nat := none
  buffer : Text := []
  isDrained : Bool := false

/-- The text that is being edited, the one that is remembered, and all the rest. -/
structure State where
  space : Text := []
  hasEnd : Bool := true
  held : Text := []
  heldHasEnd : Bool := true
  number : Nat := 0
  ranges : Array RangeState := #[]
  queue : List Queued := []
  replaced : Bool := false
  lastUsed : Option Search := none
  incoming : Incoming
  lines : List (Text × List Text) := []
  outputs : List Output := []
  buffered : List Text := []
  bufferedSize : Nat := 0
  lacksEnd : Bool := false
  collected : Option (List Text) := none
  status : Nat := 0

structure Settings where
  silent : Bool := false
  separate : Bool := false
  inPlace : Option Text := none
  lineEnd : Char := '\n'
  width : Nat := 70
  unbuffered : Bool := false

abbrev EditM := StateT State Proc

section
variable (l : Launch) (c : Settings)

/-! Output. -/

def flush : EditM Unit := do
  let s ← get
  if s.buffered ≠ [] then
    match ← (Proc.write 1 s.buffered.reverse.flatten : Proc (Except Fault Unit)) with
    | .ok () => pure ()
    | .error f => (fail l ("couldn't flush stdout: " ++ f.message) 4 : Proc Unit)
    set { s with buffered := [], bufferedSize := 0 }

def write (t : Text) : EditM Unit := do
  let s ← get
  match s.collected with
  | some parts => set { s with collected := some (t :: parts) }
  | none =>
    set { s with buffered := t :: s.buffered, bufferedSize := s.bufferedSize + t.length }
    if c.unbuffered ∨ 4096 ≤ s.bufferedSize + t.length then flush l

def completeLine : EditM Unit := do
  if (← get).lacksEnd then
    modify fun s => { s with lacksEnd := false }
    write l c [c.lineEnd]

def writeText (t : Text) : EditM Unit := do
  completeLine l c
  write l c t

def writeLine (t : Text) (hasEnd : Bool) : EditM Unit := do
  writeText l c (if hasEnd then t ++ [c.lineEnd] else t)
  if !hasEnd then modify fun s => { s with lacksEnd := true }

def writeTo (path t : Text) (hasEnd : Bool) : EditM Unit := do
  match (← get).outputs.find? (·.path = path) with
  | none => pure ()
  | some o =>
    let text := (if o.lacksEnd then [c.lineEnd] else []) ++ t ++ (if hasEnd then [c.lineEnd] else [])
    if path = "/dev/stdout" then write l c text
    else
      let _ ← (Proc.write o.fd text : Proc (Except Fault Unit))
    modify fun s =>
      { s with
        outputs := s.outputs.map fun (p : Output) => if p.path = path then { p with lacksEnd := !hasEnd } else p }

def writeQueue : EditM Unit := do
  let s ← get
  set { s with queue := [] }
  for q in s.queue do
    match q with
    | .text t => writeText l c t
    | .file path =>
      match ← (readOperand path : Proc (Except Fault Text)) with
      | .ok t => if t ≠ [] then writeText l c t
      | .error _ => pure ()

/-! Input. -/

def fill : Nat → EditM Unit
  | 0 => return ()
  | fuel + 1 => do
    let s ← get
    match s.incoming.fd with
    | none => return ()
    | some fd =>
      if s.incoming.isDrained ∨ c.lineEnd ∈ s.incoming.buffer then return ()
      else
        match ← (Proc.read fd 4096 : Proc (Except Fault Text)) with
        | .error f =>
          flush l
          (fail l ("read error on " ++ s.incoming.name ++ ": " ++ f.message) 4 : Proc Unit)
        | .ok [] => set { s with incoming := { s.incoming with isDrained := true } }
        | .ok t =>
          set { s with incoming := { s.incoming with buffer := s.incoming.buffer ++ t } }
          fill fuel

def finishFile : EditM Unit := do
  let s ← get
  match s.incoming.fd with
  | none => return ()
  | some fd =>
    if s.incoming.name ≠ ['-'] then (closeFile fd : Proc Unit)
    match s.collected, c.inPlace with
    | some parts, some ending =>
      let path := s.incoming.name
      let text := parts.reverse.flatten
      let mode := ((← (statusAt true path : Proc _)).toOption.map (·.mode)).getD 0o644
      if ending ≠ [] then
        let base := (path.reverse.takeWhile (· ≠ '/')).reverse
        let dir := path.take (path.length - base.length)
        let backup :=
          if '*' ∈ ending then
            let name := ending.flatMap fun ch => if ch = '*' then base else [ch]
            if '/' ∈ name then name else dir ++ name
          else path ++ ending
        let _ ← (Proc.call (fun pid => Sys.rename pid path backup) : Proc (Except Fault Unit))
      else
        let _ ← (Proc.call (fun pid => Sys.unlink pid path) : Proc (Except Fault Unit))
      match ← (openOutput path .forWriting mode : Proc (Except Fault Nat)) with
      | .ok out =>
        let _ ← (Proc.write out text : Proc (Except Fault Unit))
        (closeFile out : Proc Unit)
        let _ ← (Proc.call (fun pid => Sys.changeMode pid path mode) : Proc (Except Fault Unit))
      | .error _ => pure ()
    | _, _ => pure ()
    modify fun s =>
      { s with
        collected := none
        lacksEnd := if c.inPlace.isSome then false else s.lacksEnd
        incoming := { s.incoming with fd := none, buffer := [], isDrained := false } }

def openNext : Nat → EditM Bool
  | 0 => return false
  | fuel + 1 => do
    let s ← get
    match s.incoming.files with
    | [] => return false
    | path :: rest =>
      let refuse (t : Text) (status : Nat) : EditM Bool := do
        (say l t : Proc Unit)
        modify fun s => { s with status := max s.status status, incoming := { s.incoming with files := rest } }
        openNext fuel
      let start (fd : Nat) : EditM Bool := do
        modify fun s =>
          { s with
            number := if c.separate then 0 else s.number
            ranges := if c.separate then s.ranges.map fun r => if r = .closed then .inactive else r else s.ranges
            collected := if c.inPlace.isSome then some [] else none
            incoming := { files := rest, name := path, fd := some fd } }
        return true
      if path = ['-'] ∧ c.inPlace.isNone then start 0
      else
        match ← (openInput path : Proc (Except Fault Nat)) with
        | .error f => refuse ("can't read " ++ path ++ ": " ++ f.message) 2
        | .ok fd =>
          let kind := (← (statusAt true path : Proc _)).toOption.map (·.kind)
          if c.inPlace.isSome ∧ kind ≠ some .regular then
            (closeFile fd : Proc Unit)
            refuse ("couldn't edit " ++ path ++ ": not a regular file") 4
          else start fd

def hasMore (acrossFiles : Bool) : Nat → EditM Bool
  | 0 => return false
  | fuel + 1 => do
    match (← get).incoming.fd with
    | none => if acrossFiles then (if ← openNext l c 100000 then hasMore acrossFiles fuel else return false) else return false
    | some _ => do
      fill l c loopLimit
      if (← get).incoming.buffer ≠ [] then return true
      else if acrossFiles then do
        finishFile c
        hasMore acrossFiles fuel
      else return false

def atLast : EditM Bool := do return !(← hasMore l c (!c.separate) 100000)

/-- Takes the next line. `adds` puts it behind the one that is being edited. -/
def readLine (adds : Bool) : EditM Bool := do
  completeQueue
  modify fun s => { s with replaced := false }
  if ← hasMore l c true 100000 then
    modify fun s =>
      let line := s.incoming.buffer.takeWhile (· ≠ c.lineEnd)
      let rest := s.incoming.buffer.drop line.length
      let hasEnd := rest ≠ [] || s.incoming.files ≠ []
      { s with
        space := if adds then s.space ++ c.lineEnd :: line else line
        hasEnd := hasEnd
        number := s.number + 1
        incoming := { s.incoming with buffer := rest.drop 1 } }
    return true
  else return false
where
  completeQueue : EditM Unit := writeQueue l c

/-! Which lines are meant. -/

def resolve (w : Wanted) : EditM Search := do
  match w.or (← get).lastUsed with
  | some x =>
    modify fun s => { s with lastUsed := some x }
    return x
  | none => do
    flush l
    (fail l "-e expression #1, char 0: no previous regular expression" 1 : Proc Search)

def isFound (w : Wanted) : EditM Bool := do
  let x ← resolve l w
  return (x.regex.search (subjectOf x (← get).space) 0).isSome

def isAddressed (a : Address) : EditM Bool := do
  let n := (← get).number
  match a with
  | .line k => return n = k
  | .every first step => return first ≤ n && (n - first) % step = 0
  | .last => atLast l c
  | .found w => isFound l w

def setRange (i : Nat) (r : RangeState) : EditM Unit :=
  modify fun s => { s with ranges := s.ranges.set! i r }

def openRange (i : Nat) (stop : RangeEnd) : EditM Bool := do
  let n := (← get).number
  match stop with
  | .line k => setRange i (if k ≤ n then .closed else .active (some k))
  | .later 0 => setRange i .closed
  | .later k => setRange i (.active (some (n + k)))
  | .multiple 0 => setRange i .closed
  | .multiple k => setRange i (.active (some (n + k - n % k)))
  | _ => setRange i (.active none)
  return true

def continueRange (i : Nat) (stop : RangeEnd) (last : Option Nat) : EditM Bool := do
  let n := (← get).number
  match last with
  | some k =>
    if k ≤ n then setRange i .closed
    return n ≤ k
  | none => do
    let ends ←
      match stop with
      | .found w => isFound l w
      | .last => atLast l c
      | .every first step => pure (first ≤ n && (n - first) % step = 0)
      | _ => pure true
    if ends then setRange i .closed
    return true

def isSelected (i : Nat) (x : Selection) : EditM Bool := do
  let chosen ←
    match x.first, x.stop with
    | none, _ => pure true
    | some a, none => isAddressed l c a
    | some a, some stop => do
      let s ← get
      match s.ranges.getD i .inactive with
      | .active last => continueRange l c i stop last
      | state =>
        match a with
        | .line 0 =>
          if state = .closed then pure false
          else do
            setRange i (.active none)
            continueRange l c i stop none
        | .line k =>
          if state = .closed ∨ s.number < k then pure false
          else
            match stop with
            | .line e =>
              if e < s.number ∧ k ≠ s.number then do
                setRange i .closed
                pure false
              else openRange i stop
            | _ => openRange i stop
        | _ => if ← isAddressed l c a then openRange i stop else pure false
  return chosen != x.inverted

/-! Running. -/

/-- How a step ends: with the next step, another one, the end of the round with or without the line being
shown, a new round with the same text, or the end of all. -/
inductive Flow where
  | onward
  | goto (i : Nat)
  | finish
  | drop
  | again
  | quit (status : Nat)

def showSpace : EditM Unit := do
  let s ← get
  writeLine l c s.space s.hasEnd

def nextLineOf (path : Text) : EditM (Option Text) := do
  let s ← get
  let lines ←
    match s.lines.lookup path with
    | some ls => pure ls
    | none =>
      match ← (readOperand path : Proc (Except Fault Text)) with
      | .ok t => pure (chunks c.lineEnd t)
      | .error _ => pure []
  match lines with
  | [] =>
    modify fun s => { s with lines := (path, []) :: s.lines.filter (·.1 ≠ path) }
    return none
  | line :: rest =>
    modify fun s => { s with lines := (path, rest) :: s.lines.filter (·.1 ≠ path) }
    return some line

def firstPart (t : Text) : Text := t.takeWhile (· ≠ c.lineEnd)

def act (script : Script) (i : Nat) (a : Action) : EditM Flow := do
  let s ← get
  match a with
  | .enter _ | .close | .label => return .onward
  | .append t =>
    modify fun s => { s with queue := s.queue ++ [.text t] }
    return .onward
  | .insert t =>
    writeText l c t
    return .onward
  | .change t =>
    let isInside := match s.ranges.getD i .inactive with | .active _ => true | _ => false
    if !isInside then writeText l c t
    return .drop
  | .jump j name =>
    let jumps : Bool := match j with | .always => true | .ifReplaced => s.replaced | .unlessReplaced => !s.replaced
    if j ≠ .always then modify fun s => { s with replaced := false }
    if jumps then
      match script.labels.lookup name with
      | some k => if name = [] then return .finish else return .goto k
      | none => return .finish
    else return .onward
  | .delete => return .drop
  | .deleteFirst =>
    if c.lineEnd ∈ s.space then
      modify fun s => { s with space := s.space.drop ((firstPart c s.space).length + 1) }
      return .again
    else return .drop
  | .showName =>
    writeText l c (s.incoming.name ++ ['\n'])
    return .onward
  | .recall =>
    set { s with space := s.held, hasEnd := s.heldHasEnd }
    return .onward
  | .recallMore =>
    set { s with space := s.space ++ c.lineEnd :: s.held, hasEnd := s.hasEnd || s.heldHasEnd }
    return .onward
  | .remember =>
    set { s with held := s.space, heldHasEnd := s.hasEnd }
    return .onward
  | .rememberMore =>
    set { s with held := s.held ++ c.lineEnd :: s.space, heldHasEnd := s.heldHasEnd || s.hasEnd }
    return .onward
  | .swap =>
    set { s with space := s.held, hasEnd := s.heldHasEnd, held := s.space, heldHasEnd := s.hasEnd }
    return .onward
  | .list width =>
    writeText l c (wrapped (width.getD c.width) 0 (s.space.map listedChar))
    return .onward
  | .next => do
    if ← atLast l c then
      if c.separate ∧ (← hasMore l c true 100000) then return .finish
      return .finish
    else
      if !c.silent then showSpace l c
      let _ ← readLine l c false
      return .onward
  | .nextMore => do
    if ← atLast l c then return .finish
    else
      let _ ← readLine l c true
      return .onward
  | .print =>
    showSpace l c
    return .onward
  | .printFirst =>
    writeLine l c (firstPart c s.space) true
    return .onward
  | .printNumber =>
    writeText l c (Text.ofNat s.number ++ ['\n'])
    return .onward
  | .quit status =>
    if !c.silent then showSpace l c
    writeQueue l c
    return .quit status
  | .quitSilently status => return .quit status
  | .insertFile path =>
    modify fun s => { s with queue := s.queue ++ [.file (if path = "/dev/stdin" then ['-'] else path)] }
    return .onward
  | .insertLine path =>
    match ← nextLineOf c path with
    | some t => modify fun s => { s with queue := s.queue ++ [.text t] }
    | none => pure ()
    return .onward
  | .substitute x =>
    let w ← resolve l x.wanted
    let (t, replaced) := substituted w x s.space
    if replaced then
      modify fun s => { s with space := t, replaced := true }
      if x.shows then showSpace l c
      match x.file with
      | some path => writeTo l c path t (← get).hasEnd
      | none => pure ()
    return .onward
  | .translate table =>
    set { s with space := s.space.map fun ch => (table.lookup ch).getD ch }
    return .onward
  | .write path =>
    writeTo l c path s.space s.hasEnd
    return .onward
  | .writeFirst path =>
    writeTo l c path (firstPart c s.space) true
    return .onward
  | .clear =>
    set { s with space := [] }
    return .onward

def steps (script : Script) : Nat → Nat → EditM Flow
  | 0, _ => return .finish
  | fuel + 1, i =>
    match script.steps[i]? with
    | none => return .finish
    | some step => do
      if ← isSelected l c i step.selection then
        match ← act l c script i step.action with
        | .onward => steps script fuel (i + 1)
        | .goto k => steps script fuel k
        | flow => return flow
      else
        match step.action with
        | .enter past => steps script fuel past
        | _ => steps script fuel (i + 1)

/-- One round after the other. `hasLine` tells that the text is there already. -/
def rounds (script : Script) : Nat → Bool → EditM Nat
  | 0, _ => return 0
  | fuel + 1, hasLine => do
    let goes ← if hasLine then (do writeQueue l c; pure true) else readLine l c false
    if !goes then return (← get).status
    else
      match ← steps l c script loopLimit 0 with
      | .finish | .onward | .goto _ =>
        if !c.silent then showSpace l c
        rounds script fuel false
      | .drop => rounds script fuel false
      | .again => rounds script fuel true
      | .quit status => return status

end

def writtenFiles (script : Script) : List Text :=
  let all := script.steps.toList.filterMap fun step =>
    match step.action with
    | .write path | .writeFirst path => some path
    | .substitute x => x.file
    | _ => none
  all.foldl (fun seen path => if path ∈ seen then seen else seen ++ [path]) []

end Editor

open Editor

def sedForm : OptionForm :=
  .of "bsnrzuEe:f:l:i::V"
    ("quiet=n silent=n expression:=e file:=f in-place::=i line-length:=l regexp-extended=E separate=s unbuffered=u " ++
      "null-data=z zero-terminated=z posix debug follow-symlinks sandbox binary=b help version")

def sedUsage : Text := "Usage: sed [OPTION]... \x7bscript-only-if-no-other-script\x7d [input-file]...\n\n"

def scriptParts (l : Launch) : Nat → List (Text × Text) → Proc (List (Origin × Text))
  | _, [] => return []
  | n, (key, value) :: rest => do
    if key = ['e'] then
      let others ← scriptParts l (n + 1) rest
      return (.argument n, value) :: others
    else if key = ['f'] then
      match ← readOperand value with
      | .ok t =>
        let others ← scriptParts l n rest
        return (.file value, if t.getLast? = some '\n' then t.dropLast else t) :: others
      | .error f => fail l ("couldn't open file " ++ value ++ ": " ++ f.message) 4
    else scriptParts l n rest

def openOutputs (l : Launch) : List Text → Proc (List Output)
  | [] => return []
  | path :: rest => do
    let fd ←
      if path = "/dev/stdout" then pure 1
      else if path = "/dev/stderr" then pure 2
      else
        match ← openOutput path .forWriting with
        | .ok fd => pure fd
        | .error f => fail l ("couldn't open file " ++ path ++ ": " ++ f.message) 4
    let others ← openOutputs l rest
    return { path := path, fd := fd } :: others

def sed (l : Launch) : Proc Unit := do
  let l := { l with name := "sed" }
  let g ←
    match parseFrom sedForm false l.args {} with
    | .ok g => pure g
    | .error e =>
      let _ ← Proc.write 2 ("sed: " ++ e ++ '\n' :: sedUsage)
      Proc.exit 1
  let given := g.has "e" || g.has "f"
  if !given ∧ g.operands = [] then
    let _ ← Proc.write 2 sedUsage
    Proc.exit 1
  let parts ←
    if given then scriptParts l 1 g.options else pure [(.argument 1, g.operands.headD [])]
  let files := if given then g.operands else g.operands.drop 1
  if g.has "i" ∧ files = [] then fail l "no input files" 4
  match readScript (g.has "E" || g.has "r") parts with
  | .error (t, status) => fail l t status
  | .ok script => do
    let outputs ← openOutputs l (writtenFiles script)
    let c : Settings :=
      { silent := g.has "n" || script.silent
        separate := g.has "s" || g.has "i"
        inPlace := g.last? "i"
        lineEnd := g.stop
        width := ((g.last? "l").bind natural?).getD 70
        unbuffered := g.has "u" }
    let start : State :=
      { ranges := Array.replicate script.steps.size .inactive
        incoming := { files := if files = [] then [['-']] else files }
        outputs := outputs }
    let work : EditM Nat := do
      let status ← rounds l c script loopLimit false
      finishFile c
      flush l
      return max status (← get).status
    let (status, _) ← work.run start
    Proc.exit status

end Runbook.Program
