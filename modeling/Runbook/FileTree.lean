import Runbook.Path
import Runbook.Text.Utf8

/-!
A file system as a value: directories, files with permission bits, and the current directory. Looking up
a path walks its segments; every one but the last has to be a directory. There are no links, every file and
directory can be read and written, and permission bits of directories are left out.
-/
namespace Runbook

inductive FileError where
  | notFound
  | alreadyExists
  | notDirectory
  | isDirectory
  | notText
  | nameTooLong
  | zeroByte
deriving DecidableEq, Repr

def FileError.message : FileError → Text
  | notFound => "No such file or directory (os error 2)"
  | alreadyExists => "File exists (os error 17)"
  | notDirectory => "Not a directory (os error 20)"
  | isDirectory => "Is a directory (os error 21)"
  | notText => "stream did not contain valid UTF-8"
  | nameTooLong => "File name too long (os error 36)"
  | zeroByte => "file name contained an unexpected NUL byte"

/-- A file or a directory. The names in a directory are in order of creation. -/
inductive Node where
  | file (mode : Nat) (contents : Bytes)
  | dir (children : List (Text × Node))

abbrev Place := List Text

namespace Node

def fileMode : Nat := 0o644

def isDir : Node → Bool
  | dir _ => true
  | file .. => false

def isFile : Node → Bool
  | dir _ => false
  | file .. => true

def get? : Node → Place → Option Node
  | node, [] => some node
  | dir children, name :: rest => (children.lookup name).bind (·.get? rest)
  | file .., _ :: _ => none

/-- The children with one of them set; a new one comes last. -/
def setChild (name : Text) (node : Node) : List (Text × Node) → List (Text × Node)
  | [] => [(name, node)]
  | (n, old) :: rest => if n = name then (n, node) :: rest else (n, old) :: setChild name node rest

def set : Node → Place → Node → Node
  | _, [], new => new
  | dir children, [name], new => dir (setChild name new children)
  | dir children, name :: next :: rest, new =>
    match children.lookup name with
    | some child => dir (setChild name (child.set (next :: rest) new) children)
    | none => dir children
  | file mode contents, _ :: _, _ => file mode contents

def erase : Node → Place → Node
  | node, [] => node
  | dir children, [name] => dir (children.filter (·.1 ≠ name))
  | dir children, name :: next :: rest =>
    match children.lookup name with
    | some child => dir (setChild name (child.erase (next :: rest)) children)
    | none => dir children
  | file mode contents, _ :: _ => file mode contents

mutual

def descendants (place : Place) : Node → List (Place × Node)
  | file .. => []
  | dir children => descendantsOf place children

def descendantsOf (place : Place) : List (Text × Node) → List (Place × Node)
  | [] => []
  | (name, node) :: rest =>
    (place ++ [name], node) :: descendants (place ++ [name]) node ++ descendantsOf place rest

end

end Node

structure FileTree where
  cwd : Path
  root : Node

variable (t : FileTree)

namespace FileTree

def nameLimit : Nat := 255

def pathLimit : Nat := 4096

/-- No path at all: it has a zero byte in it or is too long. -/
def refusal? (p : Path) : Option FileError :=
  if '\x00' ∈ p.text then some .zeroByte
  else if pathLimit ≤ p.text.byteLength then some .nameTooLong
  else none

/-- Where one segment leads from a place, which has to be a directory. -/
def walkStep (root : Node) (place : Place) (segment : Text) : Except FileError Place :=
  match root.get? place with
  | none => .error .notFound
  | some (.file ..) => .error .notDirectory
  | some (.dir _) =>
    match Component.ofSegment segment with
    | some .up => .ok place.dropLast
    | some c => if nameLimit < c.text.byteLength then .error .nameTooLong else .ok (place ++ [c.text])
    | none => .ok place

def walk (root : Node) (place : Place) (segments : List Text) : Except FileError Place :=
  segments.foldlM (walkStep root) place

def namesOf (p : Path) : Place :=
  p.components.filterMap fun
    | .name n => some n
    | _ => none

/-- The place that a path means. What stands there may be missing, but not what lies above it. -/
def locate (p : Path) : Except FileError Place :=
  match refusal? p, p.text with
  | some e, _ => .error e
  | none, [] => .error .notFound
  | none, '/' :: body => walk t.root [] (Path.segments body)
  | none, body => walk t.root (namesOf t.cwd) (Path.segments body)

def stat (p : Path) : Except FileError Node := do
  let place ← t.locate p
  match t.root.get? place with
  | some node => .ok node
  | none => .error .notFound

def exists? (p : Path) : Bool := (t.stat p).toOption.isSome

def isDir (p : Path) : Bool := (t.stat p).toOption.any Node.isDir

def isFile (p : Path) : Bool := (t.stat p).toOption.any Node.isFile

def readBytes (p : Path) : Except FileError Bytes := do
  match ← t.stat p with
  | .file _ contents => .ok contents
  | .dir _ => .error .isDirectory

def readText (p : Path) : Except FileError Text := do
  match Utf8.decode (← t.readBytes p) with
  | some text => .ok text
  | none => .error .notText

def writeBytes (p : Path) (contents : Bytes) : Except FileError FileTree := do
  let place ← t.locate p
  match t.root.get? place with
  | some (.dir _) => .error .isDirectory
  | some (.file mode _) => .ok { t with root := t.root.set place (.file mode contents) }
  | none => .ok { t with root := t.root.set place (.file Node.fileMode contents) }

/-- A directory keeps no permission bits, so nothing changes there. -/
def setMode (p : Path) (mode : Nat) : Except FileError FileTree := do
  let place ← t.locate p
  match t.root.get? place with
  | some (.dir _) => .ok t
  | some (.file _ contents) => .ok { t with root := t.root.set place (.file mode contents) }
  | none => .error .notFound

/-- One segment of a directory that is created on the way. `last` tells the last segment. -/
def createStep (last : Bool) (root : Node) (place : Place) (segment : Text) :
    Except FileError (Node × Place) :=
  match Component.ofSegment segment with
  | some .up => .ok (root, place.dropLast)
  | none => .ok (root, place)
  | some c =>
    let next := place ++ [c.text]
    match root.get? next with
    | some (.dir _) => .ok (root, next)
    | some (.file ..) => .error (if last then .alreadyExists else .notDirectory)
    | none =>
      if nameLimit < c.text.byteLength then .error .nameTooLong else .ok (root.set next (.dir []), next)

/-- A failure comes with what has been created before it. -/
def createAll (root : Node) (place : Place) : List Text → Except (FileError × Node) Node
  | [] => .ok root
  | segment :: rest => do
    let (root, place) ← (createStep rest.isEmpty root place segment).mapError (·, root)
    createAll root place rest

/-- The tree with a directory at the path, and with all directories above it. After a failure those that
were created on the way stay. -/
def createDirs (p : Path) : Except (FileError × FileTree) FileTree :=
  let withRoot (root : Node) : FileTree := { t with root := root }
  let created (start : Place) (body : Text) : Except (FileError × FileTree) FileTree :=
    ((createAll t.root start (Path.segments body)).map withRoot).mapError fun (e, root) => (e, withRoot root)
  match refusal? p, p.text with
  | some e, _ => .error (e, t)
  | none, [] => .ok t
  | none, '/' :: body => created [] body
  | none, body => created (namesOf t.cwd) body

def remove (p : Path) : Except FileError FileTree := do
  let place ← t.locate p
  match t.root.get? place with
  | some _ => .ok { t with root := t.root.erase place }
  | none => .error .notFound

def listing (p : Path) : Except FileError (List (Place × Node)) := do
  let place ← t.locate p
  match t.root.get? place with
  | some node => .ok (node.descendants place)
  | none => .error .notFound

end FileTree

end Runbook
