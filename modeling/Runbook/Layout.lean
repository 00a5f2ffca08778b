import Runbook.Path

/-!
Where the script of a source file lies below the output root, what its functions are called, and how one
script finds another.
-/
namespace Runbook

def libraryName : Text := "jaiph_stdlib.sh"

def sourceExtensions : List Text := ["jph", "jh", "jrh"]

def Path.isSource (p : Path) : Bool := p.extension.any (· ∈ sourceExtensions)

/-- The written path of an import, with the usual extension if it has none of a source file. -/
def importedName (written : Text) : Text :=
  if sourceExtensions.any (fun ext => written.endsWith ('.' :: ext)) then written
  else written ++ ".jph"

def importedFile (cwd importer : Path) (written : Text) : Path :=
  ((importer.parent.getD ⟨[]⟩).push (importedName written)).resolve cwd

/-- The current directory and the root that all scripts of one build are placed by. -/
structure Layout where
  cwd : Path
  root : Path
deriving DecidableEq, Repr

namespace Layout

def parentName : Text := "_parent"

def parts (l : Layout) (file : Path) : List Text :=
  (Path.relative (l.root.resolve l.cwd) (file.resolve l.cwd)).components.map fun
    | .up => parentName
    | c => c.text

def stemLast (names : List Text) : List Text :=
  match names.getLast? with
  | some last => names.dropLast ++ [(Path.stem ⟨last⟩).getD last]
  | none => []

def symbol (l : Layout) (file : Path) : Text := List.intercalate "__" (stemLast (l.parts file))

def output (l : Layout) (file : Path) : Path :=
  ((l.parts file).foldl Path.push ⟨[]⟩).withExtension "sh"

def libraryPath (l : Layout) (file : Path) : Text :=
  Text.times ((l.parts file).length - 1) "../" ++ libraryName

def importPath (l : Layout) (importer imported : Path) : Text :=
  let dir := (l.output importer).parent.getD ⟨[]⟩
  List.intercalate "/" ((Path.relative dir (l.output imported)).components.map Component.text)

end Layout

end Runbook
