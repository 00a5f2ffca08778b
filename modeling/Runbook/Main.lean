import Runbook.Cli

/-!
The program. It reads the part of the file system that a command can see into a tree, does what the
command line asks for on that tree, and writes back what has changed.
-/
namespace Runbook.Main

def variableNames : List String :=
  ["HOME", "USER", "PATH", "TMPDIR", "LANG", "LC_ALL", "NO_COLOR", "XDG_CONFIG_HOME", "JAIPH_RUNS_DIR",
    "JAIPH_AGENT_MODEL", "JAIPH_AGENT_COMMAND", "JAIPH_DEBUG", "JAIPH_STDLIB", "JAIPH_ISOLATION"]

def environment : IO Env :=
  variableNames.filterMapM fun name => do
    return (← IO.getEnv name).map fun value => (name.toList, value.toList)

def onDisk (path : Text) : IO.FS.DirEntry := ⟨String.ofList path, ""⟩

/-- The permission bits of a file on disk, told by its first line: one that names an interpreter makes it
a program. -/
def modeOf (contents : Bytes) : Nat := if contents.take 2 = [35, 33] then 0o755 else Node.fileMode

/-- Reads a file, or a directory with everything below it. What cannot be read is left out. -/
partial def readNode (path : Text) : IO (Option Node) := do
  let root := (onDisk path).root
  try
    if ← root.isDir then
      let children ← (← root.readDir).toList.filterMapM fun entry => do
        let name := entry.fileName.toList
        return (← readNode (path ++ "/" ++ name)).map fun node => (name, node)
      return some (.dir children)
    else
      let contents := (← IO.FS.readBinFile root).toList
      return some (.file (modeOf contents) contents)
  catch _ => return none

def withPath (t : FileTree) (path : Path) : IO FileTree := do
  let some node ← readNode path.text | return t
  let t := ((path.parent.map t.createDirs).bind Except.toOption).getD t
  return match t.locate path with
    | .ok place => { t with root := t.root.set place node }
    | .error _ => t

/-- The directories that arguments name: those of source files, and other paths that are no arguments
of a workflow. -/
def namedDirs (cwd : Path) (args : List Text) : List Path :=
  let paths := (args.filter (·.head? ≠ some '-')).map fun arg => Path.resolve ⟨arg⟩ cwd
  let sources := (paths.filter Path.isSource).filterMap Path.parent
  match args.head?.map String.ofList with
  | some "build" | some "init" => sources ++ (paths.drop 1).filter (!·.isSource)
  | _ => sources

/-- The tree that a command sees: the current directory and those that arguments name, what marks a
workspace above them, the configuration of the user, and the directory for the scripts of a run. -/
def snapshot (cwd : Path) (env : Env) (args : List Text) : IO FileTree := do
  let dirs := (namedDirs cwd args).filter (!·.text.startsWith cwd.text) ++ [cwd]
  let mut t : FileTree := ⟨cwd, .dir []⟩
  for dir in dirs.flatMap fun dir => dir.ancestors.drop 1 do
    if ← (onDisk (dir.push ".git").text).root.pathExists then
      t := (t.createDirs (dir.push ".git")).toOption.getD t
    t ← withPath t (Config.workspaceFile dir)
  if let some file := Config.userFile env then
    t ← withPath t file
  for dir in dirs do
    t ← withPath t dir
  let scripts : Path := ⟨(env.get? "TMPDIR").getD "/tmp"⟩
  return (t.createDirs (Path.absolute cwd scripts)).toOption.getD t

def pathOf (place : Place) : Text := '/' :: List.intercalate "/" place

def rightsOf (mode : Nat) : IO.FileRight :=
  let right (bits : Nat) : IO.AccessRight := ⟨bits.testBit 2, bits.testBit 1, bits.testBit 0⟩
  ⟨right (mode / 64), right (mode / 8), right mode⟩

def writeChanged (before after : FileTree) : IO Unit :=
  for (place, node) in after.root.descendants [] do
    let root := (onDisk (pathOf place)).root
    match node, before.root.get? place with
    | .dir _, some (.dir _) => pure ()
    | .dir _, _ => IO.FS.createDirAll root
    | .file mode contents, some (.file oldMode oldContents) => do
      if contents != oldContents then IO.FS.writeBinFile root contents.toByteArray
      if mode != oldMode then IO.setAccessRights root (rightsOf mode)
    | .file mode contents, _ => do
      IO.FS.writeBinFile root contents.toByteArray
      IO.setAccessRights root (rightsOf mode)

def removeGone (before after : FileTree) : IO Unit :=
  for (place, node) in (before.root.descendants []).reverse do
    if (after.root.get? place).isNone then
      let root := (onDisk (pathOf place)).root
      if node.isDir then IO.FS.removeDir root else IO.FS.removeFile root

def started : IO Instant := do
  let modified := (← (onDisk "/proc/self").root.metadata).modified
  return ⟨modified.sec.toNat * 1000 + modified.nsec.toNat / 1000000⟩

def hexDigits (bytes : ByteArray) : Text :=
  bytes.toList.flatMap fun b => [Nat.digitChar (b.toNat / 16), Nat.digitChar (b.toNat % 16)]

def newId : IO Text := do
  let digits := hexDigits (← IO.getRandomBytes 16)
  let group (start count : Nat) : Text := (digits.drop start).take count
  return List.intercalate "-" [group 0 8, group 8 4, '4' :: group 13 3, 'a' :: group 17 3, group 20 12]

def surroundings (env : Env) : IO Surroundings :=
  return ⟨env, ← started, ← newId, hexDigits (← IO.getRandomBytes 3), ⟨false, [], false⟩⟩

end Runbook.Main

open Runbook in
def main (args : List String) : IO UInt32 := do
  let env ← Main.environment
  let cwd : Path := ⟨(← IO.currentDir).toString.toList⟩
  let args := args.map String.toList
  let before ← Main.snapshot cwd env args
  let outcome := Cli.execute (← Main.surroundings env) before args
  Main.removeGone before outcome.files
  Main.writeChanged before outcome.files
  (← IO.getStdout).write outcome.written.out.toByteArray
  (← IO.getStderr).write outcome.written.err.toByteArray
  return outcome.code.toUInt32
