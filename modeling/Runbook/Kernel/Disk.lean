import Runbook.Kernel.Fault

/-!
Files and directories as a running system keeps them: numbered nodes with any number of names, symbolic
links and devices.
-/
namespace Runbook.Kernel

inductive Content where
  | data (text : Text)
  | directory (parent : Nat) (entries : List (Text × Nat))
  | link (target : Text)
  | program (name : Text)
  | null
  | zeros
  | full
  | terminal
  | noise
  | identity
  | descriptor (fd : Nat)
  | queue (pipe : Nat)

structure Inode where
  content : Content
  mode : Nat
  changed : Nat := 0

structure Disk where
  nodes : Array Inode

variable (d : Disk)

def under (dir name : Text) : Text := if dir.getLast? = some '/' then dir ++ name else dir ++ '/' :: name

/-- Where a path leads: the last directory, the last name (empty if the path ends in a directory
without naming it) and what stands there. -/
structure Spot where
  dir : Nat
  name : Text
  node : Option Nat

namespace Disk

def root : Nat := 0

def empty : Disk := ⟨#[⟨.directory root [], 0o755, 0⟩]⟩

def node (i : Nat) : Inode := d.nodes.getD i ⟨.null, 0, 0⟩

def content (i : Nat) : Content := (d.node i).content

def entries (i : Nat) : List (Text × Nat) :=
  match d.content i with
  | .directory _ entries => entries
  | _ => []

def parent (i : Nat) : Nat :=
  match d.content i with
  | .directory up _ => up
  | _ => root

def isDirectory (i : Nat) : Bool := d.content i matches .directory ..

def child? (dir : Nat) (name : Text) : Option Nat := (d.entries dir).lookup name

def update (i : Nat) (f : Inode → Inode) : Disk := ⟨d.nodes.modify i f⟩

def setContent (i : Nat) (now : Nat) (c : Content) : Disk :=
  d.update i fun n => { n with content := c, changed := now }

def putEntry (name : Text) (i : Nat) : List (Text × Nat) → List (Text × Nat)
  | [] => [(name, i)]
  | (n, old) :: rest => if n = name then (n, i) :: rest else (n, old) :: putEntry name i rest

def attach (dir : Nat) (name : Text) (i now : Nat) : Disk :=
  let d := d.setContent dir now (.directory (d.parent dir) (putEntry name i (d.entries dir)))
  match d.content i with
  | .directory _ inner => d.update i fun n => { n with content := .directory dir inner }
  | _ => d

def detach (dir : Nat) (name : Text) (now : Nat) : Disk :=
  d.setContent dir now (.directory (d.parent dir) ((d.entries dir).filter (·.1 ≠ name)))

def create (dir : Nat) (name : Text) (mode now : Nat) (c : Content) : Nat × Disk :=
  let i := d.nodes.size
  (i, Disk.attach ⟨d.nodes.push ⟨c, mode, now⟩⟩ dir name i now)

def createDirectory (dir : Nat) (name : Text) (mode now : Nat) : Nat × Disk :=
  d.create dir name mode now (.directory dir [])

def links (i : Nat) : Nat :=
  let named := d.nodes.toList.foldl (fun count n =>
    match n.content with
    | .directory _ entries => count + (entries.filter (·.2 = i)).length
    | _ => count) 0
  let below := ((d.entries i).filter fun (_, c) => d.isDirectory c).length
  if d.isDirectory i then named + 1 + below else named

/-! Walking paths. -/

def nameLimit : Nat := 255

def walkLimit : Nat := 2000

def steps (path : Text) : List Text :=
  (path.splitOn '/').filter fun s => s ≠ [] ∧ s ≠ ['.']

def asksForDirectory (path : Text) : Bool :=
  match (path.splitOn '/').getLast? with
  | some last => last = [] ∨ last = ['.'] ∨ last = ['.', '.']
  | none => false

def startOf (cwd : Nat) (path : Text) : Nat := if path.head? = some '/' then root else cwd

/-- Walks from a directory along names. Links on the way are followed; one at the end if `follow`. -/
def walk (follow : Bool) : Nat → Nat → List Text → Except Fault Spot
  | 0, _, _ => .error .tooManyLinks
  | _ + 1, dir, [] => .ok ⟨d.parent dir, [], some dir⟩
  | fuel + 1, dir, name :: rest =>
    if !d.isDirectory dir then .error .notDirectory
    else if name = ['.', '.'] then walk follow fuel (d.parent dir) rest
    else if nameLimit < name.length then .error .nameTooLong
    else
      match d.child? dir name with
      | none => if rest = [] then .ok ⟨dir, name, none⟩ else .error .notFound
      | some i =>
        match d.content i with
        | .link target =>
          if rest = [] ∧ !follow then .ok ⟨dir, name, some i⟩
          else if target = [] then .error .notFound
          else walk follow fuel (startOf dir target) (steps target ++ rest)
        | .directory .. => if rest = [] then .ok ⟨dir, name, some i⟩ else walk follow fuel i rest
        | _ => if rest = [] then .ok ⟨dir, name, some i⟩ else .error .notDirectory

def find (cwd : Nat) (follow : Bool) (path : Text) : Except Fault Spot := do
  if path = [] then throw .notFound
  if 4096 ≤ path.length then throw .nameTooLong
  let wantsDirectory := asksForDirectory path
  let spot ← d.walk (follow || wantsDirectory) walkLimit (startOf cwd path) (steps path)
  match spot.node with
  | some i => if wantsDirectory ∧ !d.isDirectory i then throw .notDirectory else return spot
  | none => return spot

def stat (cwd : Nat) (follow : Bool) (path : Text) : Except Fault Nat := do
  match (← d.find cwd follow path).node with
  | some i => return i
  | none => throw .notFound

def namesOf : Nat → Nat → List Text
  | 0, _ => []
  | fuel + 1, i =>
    if i = root then []
    else
      let up := d.parent i
      match (d.entries up).find? (·.2 = i) with
      | some (name, _) => namesOf fuel up ++ [name]
      | none => []

def pathOf (i : Nat) : Text :=
  match d.namesOf 300 i with
  | [] => ['/']
  | names => names.flatMap ('/' :: ·)

def ensure (d : Disk) (mode now : Nat) : Nat → List Text → Nat × Disk
  | dir, [] => (dir, d)
  | dir, name :: rest =>
    match d.child? dir name with
    | some i => d.ensure mode now i rest
    | none =>
      let (i, d) := d.createDirectory dir name mode now
      d.ensure mode now i rest

end Disk

end Runbook.Kernel
