import Runbook.Clock
import Runbook.Kernel.Disk
import Runbook.Kernel.Signal

/-!
The state that all processes share: the disk, open files, pipes, processes, the time, and what has been
written to the outside.
-/
namespace Runbook.Kernel

variable (pid : Nat)

/-- What an open file leads to. The outlets are the two channels to the outside. -/
inductive Backing where
  | node (i offset : Nat) (isAppend : Bool)
  | reading (pipe : Nat)
  | writing (pipe : Nat)
  | outlet (isErrors : Bool)

/-- An open file. Several descriptors of several processes may use it and share its offset. -/
structure OpenFile where
  backing : Backing
  canRead : Bool
  canWrite : Bool
  users : Nat := 0

/-- What is on its way through a pipe. One with a name also counts how often each side was opened. -/
structure Pipe where
  held : Text := []
  size : Nat := 0
  readings : Nat := 0
  writings : Nat := 0

def pipeCapacity : Nat := 65536

def pipeAtomic : Nat := 4096

inductive Disposition where
  | usual
  | ignored
  | caught
deriving DecidableEq

structure Descriptor where
  file : Nat
  closesOnExec : Bool := false

structure Process where
  parent : Nat
  group : Nat
  descriptors : List (Nat × Descriptor)
  cwd : Nat
  umask : Nat := 0o022
  ending : Option Ending := none
  pending : List Nat := []
  dispositions : List (Nat × Disposition) := []
  wakeAt : Option Nat := none
  isStopped : Bool := false

/-- The whole system. `written` holds what left it, the last first, with a mark for errors. -/
structure World where
  disk : Disk
  files : List (Nat × OpenFile) := []
  pipes : List (Nat × Pipe) := []
  processes : List (Nat × Process) := []
  nextFile : Nat := 1
  nextProcess : Nat
  clock : Instant
  stamp : Nat := 0
  written : List (Bool × Text) := []
  noise : Nat := 12345

abbrev Sys := ExceptT Fault (StateM World)

structure Access where
  canRead : Bool := false
  canWrite : Bool := false
  creates : Bool := false
  truncates : Bool := false
  appends : Bool := false
  exclusive : Bool := false

def Access.forReading : Access := { canRead := true }

def Access.forWriting : Access := { canWrite := true, creates := true, truncates := true }

def Access.forAppending : Access := { canWrite := true, creates := true, appends := true }

def Access.forBoth : Access := { canRead := true, canWrite := true, creates := true }

namespace Sys

def alter {α : Type} (key : Nat) (f : α → α) : List (Nat × α) → List (Nat × α)
  | [] => []
  | (k, a) :: rest => if k = key then (k, f a) :: rest else (k, a) :: alter key f rest

def process : Sys Process := do
  match (← get).processes.lookup pid with
  | some p => return p
  | none => throw .noProcess

def modifyProcess (f : Process → Process) : Sys Unit :=
  modify fun w => { w with processes := alter pid f w.processes }

def stamp : Sys Nat := modifyGet fun w =>
  (w.clock.millis * 1000000 + w.stamp, { w with stamp := w.stamp + 1 })

def disk : Sys Disk := do return (← get).disk

def setDisk (d : Disk) : Sys Unit := modify fun w => { w with disk := d }

def find (follow : Bool) (path : Text) : Sys Spot := do
  let p ← process pid
  MonadExcept.ofExcept ((← disk).find p.cwd follow path)

def stat (follow : Bool) (path : Text) : Sys Nat := do
  match (← find pid follow path).node with
  | some i => return i
  | none => throw .notFound

/-! Descriptors. -/

def openFile (f : OpenFile) : Sys Nat := modifyGet fun w =>
  (w.nextFile, { w with files := (w.nextFile, f) :: w.files, nextFile := w.nextFile + 1 })

def descriptor (pid fd : Nat) : Sys Descriptor := do
  match (← process pid).descriptors.lookup fd with
  | some d => return d
  | none => throw .badDescriptor

def fileOf (pid fd : Nat) : Sys (Nat × OpenFile) := do
  let d ← descriptor pid fd
  match (← get).files.lookup d.file with
  | some f => return (d.file, f)
  | none => throw .badDescriptor

def modifyFile (id : Nat) (f : OpenFile → OpenFile) : Sys Unit :=
  modify fun w => { w with files := alter id f w.files }

def release (id : Nat) : Sys Unit :=
  modify fun w =>
    match w.files.lookup id with
    | some f =>
      if f.users ≤ 1 then { w with files := w.files.filter (·.1 ≠ id) }
      else { w with files := alter id (fun f => { f with users := f.users - 1 }) w.files }
    | none => w

def close (pid fd : Nat) : Sys Unit := do
  let d ← descriptor pid fd
  modifyProcess pid fun p => { p with descriptors := p.descriptors.filter (·.1 ≠ fd) }
  release d.file

def install (pid fd id : Nat) (closesOnExec : Bool) : Sys Unit := do
  modifyFile id fun f => { f with users := f.users + 1 }
  match (← process pid).descriptors.lookup fd with
  | some old => release old.file
  | none => pure ()
  modifyProcess pid fun p =>
    { p with descriptors := (fd, ⟨id, closesOnExec⟩) :: p.descriptors.filter (·.1 ≠ fd) }

def freeFrom (used : List Nat) : Nat → Nat → Nat
  | 0, n => n
  | fuel + 1, n => if n ∈ used then freeFrom used fuel (n + 1) else n

def freeDescriptor (pid start : Nat) : Sys Nat := do
  let used := (← process pid).descriptors.map (·.1)
  return freeFrom used (used.length + 1) start

def installFrom (pid start id : Nat) (closesOnExec : Bool) : Sys Nat := do
  let fd ← freeDescriptor pid start
  install pid fd id closesOnExec
  return fd

def duplicate (pid source target : Nat) : Sys Unit := do
  let d ← descriptor pid source
  if source ≠ target then install pid target d.file false

/-- A copy of a descriptor at the least free number from `start` on. -/
def duplicateFrom (pid source start : Nat) (closesOnExec : Bool) : Sys Nat := do
  installFrom pid start (← descriptor pid source).file closesOnExec

def newPipe : Sys (Nat × Nat) := do
  let w ← get
  let p := w.nextFile
  set { w with nextFile := p + 1, pipes := (p, {}) :: w.pipes }
  let reader ← openFile ⟨.reading p, true, false, 0⟩
  let writer ← openFile ⟨.writing p, false, true, 0⟩
  return (reader, writer)

def filledPipe (t : Text) : Sys Nat := do
  let w ← get
  let p := w.nextFile
  set { w with nextFile := p + 1, pipes := (p, { held := t, size := t.length }) :: w.pipes }
  openFile ⟨.reading p, true, false, 0⟩

/-! Opening, reading and writing. -/

def openNode (pid i : Nat) (access : Access) : Sys Nat := do
  let plain (i : Nat) : Sys Nat := do
    if access.truncates then
      match (← disk).content i with
      | .data _ => setDisk ((← disk).setContent i (← stamp) (.data []))
      | _ => pure ()
    openFile ⟨.node i 0 access.appends, access.canRead, access.canWrite, 0⟩
  match (← disk).content i with
  | .directory .. => if access.canWrite then throw .isDirectory else plain i
  | .terminal => throw .noDevice
  | .descriptor fd =>
    let held ← try fileOf pid fd catch _ => throw .notFound
    match held.2.backing with
    | .node i _ _ => plain i
    | .outlet e => openFile ⟨.outlet e, access.canRead, access.canWrite, 0⟩
    | .reading p | .writing p =>
      openFile ⟨if access.canWrite then .writing p else .reading p, access.canRead, access.canWrite, 0⟩
  | .queue p =>
    modify fun w =>
      { w with
        pipes := alter p (fun q =>
          { q with
            readings := if access.canRead then q.readings + 1 else q.readings
            writings := if access.canWrite then q.writings + 1 else q.writings }) w.pipes }
    openFile ⟨if access.canWrite then .writing p else .reading p, access.canRead, access.canWrite, 0⟩
  | _ => plain i

def openPath (path : Text) (access : Access) (mode : Nat) : Sys Nat := do
  let spot ← find pid true path
  match spot.node with
  | some i => if access.exclusive then throw .alreadyExists else openNode pid i access
  | none =>
    if !access.creates then throw .notFound
    if path.getLast? = some '/' then throw .isDirectory
    let mask := (← process pid).umask
    let (i, d) := (← disk).create spot.dir spot.name (mode &&& (0o777 ^^^ mask)) (← stamp) (.data [])
    setDisk d
    openNode pid i access

/-- Opens a path at the least free number from `start` on. -/
def openFrom (start : Nat) (path : Text) (access : Access) (mode : Nat) : Sys Nat := do
  installFrom pid start (← openPath pid path access mode) true

def isEnd (b : Backing) (f : OpenFile) : Bool :=
  match b, f.backing with
  | .reading p, .reading q | .reading p, .writing q => p = q && f.canRead
  | .writing p, .reading q | .writing p, .writing q => p = q && f.canWrite
  | _, _ => false

def ends (w : World) (b : Backing) : Nat :=
  (w.files.filter fun (_, f) => isEnd b f).foldl (fun n (_, f) => n + f.users) 0

/-- The pipe with a name that would be opened on one side only, and how often the other side has been
opened. -/
def side? (path : Text) (access : Access) : Sys (Option (Nat × Nat)) := do
  match (← find pid true path).node with
  | some i =>
    match (← disk).content i with
    | .queue p =>
      let q := ((← get).pipes.lookup p).getD {}
      if access.canRead ∧ access.canWrite then return none
      else return some (p, if access.canRead then q.writings else q.readings)
    | _ => return none
  | none => return none

def hasOther (access : Access) (p before : Nat) : Sys Bool := do
  let w ← get
  let q := (w.pipes.lookup p).getD {}
  if access.canRead then return ends w (.writing p) ≠ 0 || before < q.writings
  else return ends w (.reading p) ≠ 0 || before < q.readings

def random : Sys Nat := modifyGet fun w =>
  let next := (w.noise * 1103515245 + 12345) % 2147483648
  (next / 65536 % 32768, { w with noise := next })

def hexDigits (n count : Nat) : Text :=
  let ds := Nat.toDigits 16 n
  List.replicate (count - ds.length) '0' ++ ds

def identity : Sys Text := do
  let a ← random
  let b ← random
  let c ← random
  let d ← random
  return hexDigits (a * 65536 + b) 8 ++ "-" ++ hexDigits c 4 ++ "-4" ++ hexDigits (d % 4096) 3 ++ "-a" ++
    hexDigits (a % 4096) 3 ++ "-" ++ hexDigits (b * 4294967296 + c * 65536 + d) 12

def contentFrom (i offset count : Nat) : Sys Text := do
  match (← disk).content i with
  | .data t => return (t.drop offset).take count
  | .directory .. => throw .isDirectory
  | .zeros | .full => return List.replicate count '\x00'
  | .noise => return (List.range count).map fun k => Char.ofNat ((k * 7919 + 104729) % 256)
  | .identity => if offset = 0 then return (← identity) ++ ['\n'] else return []
  | .program name => return (("\x7fELF" : Text) ++ name).drop offset |>.take count
  | _ => return []

def read (pid fd count : Nat) : Sys (Option Text) := do
  let (id, f) ← fileOf pid fd
  if !f.canRead then throw .badDescriptor
  match f.backing with
  | .node i offset a =>
    let t ← contentFrom i offset count
    modifyFile id fun f => { f with backing := .node i (offset + t.length) a }
    return some t
  | .reading p | .writing p =>
    let w ← get
    let held := ((w.pipes.lookup p).map (·.held)).getD []
    if held = [] then return if ends w (.writing p) = 0 then some [] else none
    else
      let t := held.take count
      set { w with pipes := alter p (fun q => { q with held := held.drop count, size := q.size - t.length }) w.pipes }
      return some t
  | .outlet _ => return some []

def through (stop : Char) : Nat → Text → Text
  | 0, _ => []
  | _, [] => []
  | n + 1, c :: rest => if c = stop then [c] else c :: through stop n rest

def readThrough (pid fd : Nat) (stop : Char) (count : Nat) : Sys (Option Text) := do
  let (id, f) ← fileOf pid fd
  if !f.canRead then throw .badDescriptor
  match f.backing with
  | .node i offset a =>
    let t := through stop count (← contentFrom i offset count)
    modifyFile id fun f => { f with backing := .node i (offset + t.length) a }
    return some t
  | .reading p | .writing p =>
    let w ← get
    let held := ((w.pipes.lookup p).map (·.held)).getD []
    read pid fd (through stop count held).length >>= fun r =>
      if held = [] then return if ends w (.writing p) = 0 then some [] else none
      else return r
  | .outlet _ => return some []

def splice (old : Text) (offset : Nat) (new : Text) : Text :=
  old.take offset ++ List.replicate (offset - old.length) '\x00' ++ new ++ old.drop (offset + new.length)

def signalTo (pid signal : Nat) : Sys Unit :=
  modifyProcess pid fun p =>
    if p.ending.isSome then p
    else
      let d := (p.dispositions.lookup signal).getD .usual
      let dropped := signal ≠ Signal.killed ∧
        (d = .ignored ∨ (d = .usual ∧ Signal.isHarmless signal))
      let p := if signal = Signal.continued then { p with isStopped := false } else p
      if dropped then p
      else if Signal.isStop signal ∧ (d = .usual ∨ signal = 19) then { p with isStopped := true }
      else { p with pending := p.pending ++ [signal] }

def write (pid fd : Nat) (t : Text) : Sys (Option Nat) := do
  let (id, f) ← fileOf pid fd
  if !f.canWrite then throw .badDescriptor
  match f.backing with
  | .node i offset isAppend =>
    match (← disk).content i with
    | .data old =>
      let offset := if isAppend then old.length else offset
      setDisk ((← disk).setContent i (← stamp) (.data (splice old offset t)))
      modifyFile id fun f => { f with backing := .node i (offset + t.length) isAppend }
    | .full => throw .noSpace
    | _ => pure ()
    return some t.length
  | .writing p | .reading p =>
    let w ← get
    if ends w (.reading p) = 0 then
      signalTo pid Signal.brokenPipe
      throw .brokenPipe
    let q := (w.pipes.lookup p).getD {}
    let room := pipeCapacity - q.size
    if room < t.length ∧ (t.length ≤ pipeAtomic ∨ room = 0) then return none
    else
      let part := t.take room
      set { w with pipes := alter p (fun q => { q with held := q.held ++ part, size := q.size + part.length }) w.pipes }
      return some part.length
  | .outlet e =>
    modify fun w => { w with written := (e, t) :: w.written }
    return some t.length

def seek (pid fd offset : Nat) : Sys Unit := do
  let (id, f) ← fileOf pid fd
  match f.backing with
  | .node i _ a => modifyFile id fun f => { f with backing := .node i offset a }
  | _ => throw .isPipe

def offset (pid fd : Nat) : Sys Nat := do
  match (← fileOf pid fd).2.backing with
  | .node _ offset _ => return offset
  | _ => throw .isPipe

/-! What is known of files. -/

inductive FileKind where
  | regular
  | directory
  | link
  | queue
  | device
deriving DecidableEq

structure FileStatus where
  kind : FileKind
  mode : Nat
  size : Nat
  number : Nat
  changed : Nat
  links : Nat := 1

def programSize : Nat := 100000

def statusOf (d : Disk) (i : Nat) : FileStatus :=
  let n := d.node i
  let base (kind : FileKind) (size : Nat) : FileStatus := ⟨kind, n.mode, size, i + 1000, n.changed, d.links i⟩
  match n.content with
  | .data t => base .regular t.length
  | .program _ => base .regular programSize
  | .directory .. => base .directory 4096
  | .link target => base .link target.length
  | .queue _ => base .queue 0
  | _ => base .device 0

def descriptorStatus (pid fd : Nat) : Sys FileStatus := do
  match (← fileOf pid fd).2.backing with
  | .node i _ _ => return statusOf (← disk) i
  | .reading p | .writing p => return ⟨.queue, 0o600, 0, 900000 + p, 0, 1⟩
  | .outlet e => return ⟨.queue, 0o600, 0, if e then 2 else 1, 0, 1⟩

def status (follow : Bool) (path : Text) : Sys FileStatus := do
  let i ← stat pid follow path
  match (← disk).content i with
  | .descriptor fd =>
    if follow then try descriptorStatus pid fd catch _ => throw .notFound
    else return { statusOf (← disk) i with kind := .link }
  | _ => return statusOf (← disk) i

/-! Names. -/

def listing (path : Text) : Sys (List (Text × Nat)) := do
  let i ← stat pid true path
  if (← disk).isDirectory i then return (← disk).entries i else throw .notDirectory

def chdir (path : Text) : Sys Unit := do
  let i ← stat pid true path
  if (← disk).isDirectory i then modifyProcess pid fun p => { p with cwd := i } else throw .notDirectory

def currentDirectory : Sys Text := do return (← disk).pathOf (← process pid).cwd

/-- A place where nothing stands yet. -/
def vacant (path : Text) : Sys Spot := do
  let spot ← find pid false path
  if spot.node.isSome then throw .alreadyExists
  return spot

def makeDirectory (path : Text) (mode : Nat) : Sys Unit := do
  let p ← process pid
  let bare := (path.reverse.dropWhile (· == '/')).reverse
  let spot ← vacant pid (if bare = [] then path else bare)
  setDisk ((← disk).createDirectory spot.dir spot.name (mode &&& (0o777 ^^^ p.umask)) (← stamp)).2

def makeLink (target path : Text) : Sys Unit := do
  let spot ← vacant pid path
  setDisk ((← disk).create spot.dir spot.name 0o777 (← stamp) (.link target)).2

def makeQueue (path : Text) (mode : Nat) : Sys Unit := do
  let p ← process pid
  let spot ← vacant pid path
  let w ← get
  let q := w.nextFile
  set { w with nextFile := q + 1, pipes := (q, {}) :: w.pipes }
  setDisk ((← disk).create spot.dir spot.name (mode &&& (0o777 ^^^ p.umask)) (← stamp) (.queue q)).2

def addName (old new : Text) : Sys Unit := do
  let i ← stat pid false old
  if (← disk).isDirectory i then throw .notPermitted
  let spot ← vacant pid new
  setDisk ((← disk).attach spot.dir spot.name i (← stamp))

def unlink (path : Text) : Sys Unit := do
  let spot ← find pid false path
  match spot.node with
  | none => throw .notFound
  | some i =>
    if (← disk).isDirectory i then throw .isDirectory
    setDisk ((← disk).detach spot.dir spot.name (← stamp))

def removeDirectory (path : Text) : Sys Unit := do
  let bare := (path.reverse.dropWhile (· == '/')).reverse
  if Disk.asksForDirectory bare then throw .invalid
  let spot ← find pid false (if bare = [] then path else bare)
  match spot.node with
  | none => throw .notFound
  | some i =>
    if !(← disk).isDirectory i then throw .notDirectory
    if (← disk).entries i ≠ [] then throw .notEmpty
    setDisk ((← disk).detach spot.dir spot.name (← stamp))

def isInside (d : Disk) (outer : Nat) : Nat → Nat → Bool
  | 0, _ => false
  | fuel + 1, i => i == outer || (i != Disk.root && isInside d outer fuel (d.parent i))

def rename (old new : Text) : Sys Unit := do
  let source ← find pid false old
  let target ← find pid false new
  match source.node with
  | none => throw .notFound
  | some i =>
    let d ← disk
    if d.isDirectory i && isInside d i 300 target.dir then throw .invalid
    match target.node with
    | some j =>
      if i = j then return ()
      if d.isDirectory j then
        if !d.isDirectory i then throw .isDirectory
        if d.entries j ≠ [] then throw .notEmpty
      else if d.isDirectory i then throw .notDirectory
    | none => pure ()
    let now ← stamp
    setDisk ((d.detach source.dir source.name now).attach target.dir target.name i now)

def changeMode (path : Text) (mode : Nat) : Sys Unit := do
  let i ← stat pid true path
  setDisk ((← disk).update i fun n => { n with mode := mode })

def changeTime (path : Text) (time : Nat) : Sys Unit := do
  let i ← stat pid true path
  setDisk ((← disk).update i fun n => { n with changed := time })

/-! Processes. -/

def fork : Sys Nat := do
  let p ← process pid
  let w ← get
  let child := w.nextProcess
  let files := p.descriptors.foldl (fun files (_, d) =>
    alter d.file (fun (f : OpenFile) => { f with users := f.users + 1 }) files) w.files
  set { w with
    files := files
    nextProcess := child + 1
    processes := (child, { p with parent := pid, pending := [], wakeAt := none }) :: w.processes }
  return child

/-- A process that starts another program keeps what it ignores and drops what it caught, and closes
the descriptors that are marked. -/
def startProgram : Sys Unit := do
  let p ← process pid
  for (fd, d) in p.descriptors do
    if d.closesOnExec then close pid fd
  modifyProcess pid fun p =>
    { p with dispositions := p.dispositions.filter (·.2 = .ignored) }

def finish (e : Ending) : Sys Unit := do
  let p ← process pid
  for (fd, _) in p.descriptors do
    close pid fd
  modifyProcess pid fun p => { p with ending := some e, pending := [], wakeAt := none }
  modify fun w => { w with
    processes := w.processes.map fun (id, q) => if q.parent = pid then (id, { q with parent := 1 }) else (id, q) }
  signalTo p.parent Signal.child

def endedChildren : Sys (List (Nat × Ending)) := do
  let found := (← get).processes.filterMap fun (id, p) =>
    if p.parent = pid then p.ending.map (id, ·) else none
  return found.reverse

def reap (child : Nat) : Sys Unit :=
  modify fun w => { w with processes := w.processes.filter (·.1 ≠ child) }

def kill (target : Int) (signal : Nat) : Sys Unit := do
  let own ← process pid
  let all := (← get).processes
  let group := if target = 0 then own.group else (-target).toNat
  let alive : List Nat :=
    if 0 < target then [target.toNat].filter fun id => (all.lookup id).isSome
    else all.filterMap fun (id, p) => if p.group = group then some id else none
  if alive = [] then throw .noProcess
  if signal ≠ 0 then
    for id in alive do
      signalTo id signal

def dispose (pid signal : Nat) (d : Disposition) : Sys Unit :=
  modifyProcess pid fun p =>
    { p with dispositions := (signal, d) :: p.dispositions.filter (·.1 ≠ signal) }

def takePending : Sys (List Nat) := do
  let p ← process pid
  let (caught, rest) := p.pending.partition fun s => p.dispositions.lookup s = some .caught
  modifyProcess pid fun p => { p with pending := rest }
  return caught

def fatal? (p : Process) : Option Nat :=
  p.pending.find? fun s => s = Signal.killed ∨ (p.dispositions.lookup s).getD .usual = .usual

end Sys

end Runbook.Kernel
