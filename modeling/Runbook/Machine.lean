import Runbook.FileTree
import Runbook.Interpreter
import Runbook.Kernel.Scheduler
import Runbook.Shell.Octets

/-!
A machine that runs one shell on a file tree: the tree becomes a disk with devices and programs beside
it, and what is left on the disk afterwards becomes a tree again.
-/
namespace Runbook.Machine
open Kernel Shell

/-! What a machine has before it gets a tree. -/

def provide (d : Disk) (path : Text) (mode : Nat) (c : Content) : Disk :=
  match (Disk.steps path).reverse with
  | [] => d
  | name :: up =>
    let (dir, d) := d.ensure 0o755 0 Disk.root up.reverse
    if (d.child? dir name).isSome then d else (d.create dir name mode 0 c).2

def devices : List (Text × Content) :=
  [ ("null", .null), ("zero", .zeros), ("full", .full), ("random", .noise), ("urandom", .noise),
    ("tty", .terminal),
    ("stdin", .descriptor 0), ("stdout", .descriptor 1), ("stderr", .descriptor 2) ]

def directories : List Text := ["/etc", "/root", "/tmp", "/usr/local/bin", "/var/tmp"]

def equipment : Disk :=
  let d := directories.foldl (fun d path => (d.ensure 0o755 0 Disk.root (Disk.steps path)).2) .empty
  let d := devices.foldl (fun d (name, c) => provide d ("/dev/" ++ name) 0o666 c) d
  let d := (List.range 256).foldl (fun d n => provide d ("/dev/fd/" ++ Text.ofNat n) 0o600 (.descriptor n)) d
  let d := provide d "/proc/sys/kernel/random/uuid" 0o444 .identity
  let d := provide d "/etc/passwd" 0o644 (.data "root:x:0:0:root:/root:/bin/bash\n")
  let names := Interpreter.shellNames ++ Program.table.map (·.1)
  let d := names.foldl (fun d name => provide d ("/usr/bin/" ++ name) 0o755 (.program name)) d
  provide (provide d "/bin" 0o777 (.link "usr/bin")) "/sbin" 0o777 (.link "usr/bin")

/-! From a tree to a disk. -/

mutual

def place (now : Nat) (d : Disk) (dir : Nat) (name : Text) : Node → Disk
  | .file mode contents =>
    let d := if (d.child? dir (octets name)).isSome then d.detach dir (octets name) now else d
    (d.create dir (octets name) mode now (.data (ofBytes contents))).2
  | .dir children =>
    match d.child? dir (octets name) with
    | some i => placeAll now d i children
    | none =>
      let (i, d) := d.createDirectory dir (octets name) 0o755 now
      placeAll now d i children

def placeAll (now : Nat) (d : Disk) (dir : Nat) : List (Text × Node) → Disk
  | [] => d
  | (name, node) :: rest => placeAll now (place now d dir name node) dir rest

end

/-- The disk for a tree, all of which was last changed at one moment. -/
def diskOf (t : FileTree) (clock : Instant) : Disk :=
  match t.root with
  | .dir children => placeAll (clock.millis * 1000000) equipment Disk.root children
  | .file .. => equipment

/-! From a disk to a tree. -/

/-- The node of a tree for a node of the disk, given what stood there before. What belongs to the
machine itself gives none. A link stands as an empty file. -/
def nodeOf (d : Disk) : Nat → Option Node → Nat → Option Node
  | 0, _, _ => none
  | fuel + 1, old, i =>
    let isOwn := i < equipment.nodes.size
    let n := d.node i
    match n.content with
    | .directory _ entries =>
      let children := entries.filterMap fun (name, c) =>
        let name := decoded name
        (nodeOf d fuel (old.bind (·.get? [name])) c).map (name, ·)
      if isOwn ∧ old.isNone ∧ children.isEmpty then none else some (.dir children)
    | .data t => if isOwn then none else some (.file n.mode (toBytes t))
    | _ => if isOwn then none else some (.file n.mode [])

def treeOf (d : Disk) (t : FileTree) : FileTree :=
  { t with root := (nodeOf d 300 (some t.root) Disk.root).getD (.dir []) }

/-! Running. -/

structure Start where
  files : FileTree
  cwd : Path
  env : List (Text × Text)
  args : List Text
  clock : Instant

structure Outcome where
  ending : Ending
  /-- What was written, in order, with a mark for the error channel. -/
  written : List (Bool × Bytes)
  files : FileTree
  clock : Instant

def firstProcess : Nat := 4001

def turnLimit : Nat := 1000000000

def worldOf (s : Start) : World :=
  let d := diskOf s.files s.clock
  let cwd := (d.stat Disk.root true (octets s.cwd.text)).toOption.getD Disk.root
  let null := (d.stat Disk.root true "/dev/null").toOption.getD Disk.root
  let process : Process :=
    { parent := firstProcess - 1
      group := firstProcess
      descriptors := [(0, ⟨0, false⟩), (1, ⟨1, false⟩), (2, ⟨2, false⟩)]
      cwd := cwd }
  { disk := d
    files :=
      [ (0, ⟨.node null 0 false, true, false, 1⟩), (1, ⟨.outlet false, false, true, 1⟩),
        (2, ⟨.outlet true, false, true, 1⟩) ]
    processes := [(firstProcess, process)]
    nextFile := 3
    nextProcess := firstProcess + 1
    clock := s.clock
    noise := s.clock.millis }

/-- Nobody waits for what processes still do: the first one has ended, and nothing leads to the
outside. -/
def isOver (w : World) : Bool :=
  ((w.processes.lookup firstProcess).all (·.ending.isSome)) &&
    !(w.files.any fun (_, f) => f.backing matches .outlet _)

def run (s : Start) : Outcome :=
  let env : Environment := s.env.map fun (name, value) => (octets name, octets value)
  let action := Interpreter.shell (s.args.map octets) env firstProcess fun _ => .finish (.exited 0)
  let w := Scheduler.run isOver turnLimit turnLimit (worldOf s) [⟨firstProcess, action⟩]
  { ending := ((w.processes.lookup firstProcess).bind (·.ending)).getD (.exited 1)
    written := w.written.reverse.map fun (isError, t) => (isError, toBytes t)
    files := treeOf w.disk s.files
    clock := w.clock }

end Runbook.Machine
