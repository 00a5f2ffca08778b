import Runbook.Error
import Runbook.Layout
import Runbook.Source.Reader

/-!
Checking a module against the modules it imports, which are read but not checked in turn. The first
violation is reported: imports in order, then references in order.
-/
namespace Runbook

def FileTree.readModule (t : FileTree) (file : Path) : Except CompileError Module :=
  match t.readText file with
  | .error e => .error (.read file e)
  | .ok source => (Module.parse file source).mapError (CompileError.parse file)

abbrev Scope := List (Text × Module)

namespace Module

/-- The modules behind the imports, after those already in scope. `known` are the modules read so far
by file: a file that is imported twice is read once. -/
def loadImports (t : FileTree) (m : Module) :
    Scope → List (Path × Module) → List Import → Except CompileError Scope
  | scope, _, [] => .ok scope
  | scope, known, i :: rest =>
    let file := importedFile t.cwd m.file i.path
    if (scope.lookup i.owner).isSome then .error (.validation m.file i.loc (.duplicateOwner i.owner))
    else if !t.isFile file then .error (.importNotFound m.file i.loc i.owner file)
    else
      match known.lookup file with
      | some imported => loadImports t m (scope ++ [(i.owner, imported)]) known rest
      | none => do
        let imported ← t.readModule file
        loadImports t m (scope ++ [(i.owner, imported)]) ((file, imported) :: known) rest

def checkReference (m : Module) (scope : Scope) (kind : Kind) (r : Reference) :
    Option ValidationCause :=
  match r.target with
  | none => some (.malformed kind r.value)
  | some (.own name) => if m.declares kind name then none else some (.unknownName kind r.value)
  | some (.imported owner name) =>
    match scope.lookup owner with
    | none => some (.unknownOwner owner kind r.value)
    | some imported =>
      if imported.declares kind name then none else some (.unknownImported kind r.value)

def checkReferences (m : Module) (scope : Scope) :
    List (Kind × Reference) → Except CompileError Unit
  | [] => .ok ()
  | (kind, r) :: rest =>
    match m.checkReference scope kind r with
    | some cause => .error (.validation m.file r.loc cause)
    | none => checkReferences m scope rest

/-- The imports can be read and every reference means a declaration. -/
def validate (t : FileTree) (m : Module) : Except CompileError Unit := do
  let scope ← loadImports t m [] [] m.imports
  checkReferences m scope m.references

end Module

end Runbook
