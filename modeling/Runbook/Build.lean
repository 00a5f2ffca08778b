import Runbook.Library
import Runbook.Script

/-!
Building: compiling one source file, all sources below a directory, or a file with all its imports, and
writing scripts and the runtime library below an output root. What is written stays when a later source is
refused.
-/
namespace Runbook

abbrev BuildM := ExceptT CompileError (StateM FileTree)

structure BuildOutput where
  source : Path
  output : Path
  shell : Text
deriving DecidableEq, Repr

namespace BuildM

def look {α : Type} (f : FileTree → Except CompileError α) : BuildM α := fun t => (f t, t)

/-- A change of the tree; a refusal is an error in writing `path`, and what was changed before it stays. -/
def change (path : Path) (f : FileTree → Except (FileError × FileTree) FileTree) : BuildM Unit := fun t =>
  match f t with
  | .ok t' => (.ok (), t')
  | .error (e, t') => (.error (.write path e), t')

end BuildM

namespace Build

def createDirs (dir : Path) : BuildM Unit := BuildM.change dir (·.createDirs dir)

def writeText (path : Path) (text : Text) : BuildM Unit :=
  BuildM.change path fun t => (t.writeBytes path (Utf8.encode text)).mapError (·, t)

def writeLibrary (outRoot : Path) : BuildM Unit :=
  writeText (outRoot.push libraryName) Library.text

def compileInto (root outRoot file : Path) : BuildM BuildOutput := do
  let script ← BuildM.look (·.compile file root)
  let cwd ← (·.cwd) <$> get
  let output := outRoot.join (Layout.output ⟨cwd, root⟩ file)
  match output.parent with
  | some dir => createDirs dir
  | none => pure ()
  writeText output (script.text ++ "\n")
  return ⟨file, output, script.text⟩

def pathBelow (dir : Path) (names : Place) : Path := names.foldl Path.push dir

mutual

/-- The sources at and below a node that is found by its path. A directory has to be read by that path. -/
def listSources (path : Path) : Node → Except CompileError (List Path)
  | .file .. => .ok (if path.isSource then [path] else [])
  | .dir children =>
    match FileTree.refusal? path with
    | some e => .error (.read path e)
    | none => listChildren path children

/-- Of the directories that were met, the last one is read first. -/
def listChildren (dir : Path) : List (Text × Node) → Except CompileError (List Path)
  | [] => .ok []
  | (name, node) :: rest => do
    let later ← listChildren dir rest
    let found ← listSources (dir.push name) node
    return found ++ later

end

def sourcesBelow (dir : Path) (node : Node) : Except CompileError (List Path) :=
  (listSources dir node).map (·.mergeSort Path.le)

/-- Builds a file or all sources below a directory, next to the sources or below `target`. -/
def build (input : Path) (target : Option Path) : BuildM (List BuildOutput) := do
  let cwd ← (·.cwd) <$> get
  let input := input.resolve cwd
  let node ← BuildM.look fun t => (t.stat input).mapError (CompileError.read input)
  let root := if node.isDir then input else input.parent.getD ⟨[]⟩
  let outRoot := (target.map (·.resolve cwd)).getD root
  createDirs outRoot
  let sources ← BuildM.look fun t =>
    (t.stat input).mapError (CompileError.read input) >>= sourcesBelow input
  if sources ≠ [] then writeLibrary outRoot
  sources.mapM (compileInto root outRoot)

def compileImports (root outRoot file : Path) :
    List Import → List Path → BuildM (List Path × List Path)
  | [], seen => return (seen, [])
  | i :: rest, seen => do
    let cwd ← (·.cwd) <$> get
    let imported := importedFile cwd file i.path
    if imported ∈ seen then compileImports root outRoot file rest seen
    else do
      let _ ← compileInto root outRoot imported
      let (seen, found) ← compileImports root outRoot file rest (seen ++ [imported])
      return (seen, imported :: found)

def compileClosure (root outRoot : Path) : Nat → List Path → List Path → BuildM Unit
  | 0, _, _ => return ()
  | _ + 1, _, [] => return ()
  | fuel + 1, seen, file :: queue => do
    let m ← BuildM.look (·.readModule file)
    let (seen, found) ← compileImports root outRoot file m.imports seen
    compileClosure root outRoot fuel seen (queue ++ found)

/-- Twice the number of files and one: a file has at most two normal paths, one of which starts with
a step above the root. -/
def closureFuel (t : FileTree) : Nat :=
  2 * ((t.root.descendants []).filter (·.2.isFile)).length + 1

/-- Builds a file and everything it imports, directly or not. The outputs are those of the file. -/
def buildWithImports (entry target : Path) : BuildM (List BuildOutput) := do
  let outputs ← build entry (some target)
  let cwd ← (·.cwd) <$> get
  let entry := entry.resolve cwd
  let fuel ← closureFuel <$> get
  compileClosure (entry.parent.getD ⟨[]⟩) (target.resolve cwd) fuel [entry] [entry]
  return outputs

end Build

end Runbook
