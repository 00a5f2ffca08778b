import Runbook.DateText
import Runbook.Program.Lines
import Runbook.Program.Mode

/-!
Programs that create, copy, move and remove files, and change what is known of them.
-/
namespace Runbook.Program
open Kernel Sys

variable (l : Launch) (g : Given)

/-! Paths. -/

def isDirectoryAt (path : Text) : Proc Bool := do
  return (← statusAt true path).toOption.any (·.kind = .directory)

def trimSlashes (t : Text) : Text :=
  let bare := (t.reverse.dropWhile (· == '/')).reverse
  if bare = [] ∧ t ≠ [] then ['/'] else bare

def lastName (t : Text) : Text :=
  let bare := trimSlashes t
  if bare = ['/'] then bare else (bare.reverse.takeWhile (· != '/')).reverse

def directoryName (t : Text) : Text :=
  let bare := trimSlashes t
  match Text.cutAtLast (· == '/') bare with
  | none => ['.']
  | some (up, _) => if up = [] then ['/'] else if trimSlashes up = [] then ['/'] else trimSlashes up

def namesIn (path : Text) : Proc (List Text) := do
  return ((← Proc.call fun pid => listing pid path).toOption.getD []).map (·.1)

def attemptCall (s : Nat → Sys Unit) : Proc (Option Fault) := do
  match ← Proc.call s with
  | .ok () => return none
  | .error f => return some f

/-! Directories. -/

def wayTo (path : Text) : List Text :=
  let names := path.splitOn '/'
  let all := (List.range names.length).map fun i => ['/'].intercalate (names.take (i + 1))
  all.filter fun p => p ≠ [] ∧ p.getLast? ≠ some '/'

def makeWay (mode : Nat) (isVerbose : Bool) (whole : Text) : List Text → Proc Bool
  | [] => return true
  | path :: rest => do
    match ← statusAt true path with
    | .ok st =>
      if st.kind = .directory then makeWay mode isVerbose whole rest
      else do
        say l ("cannot create directory " ++ quoted path ++ ": " ++
          (if rest = [] then Fault.message .alreadyExists else Fault.message .notDirectory))
        return false
    | .error _ =>
      match ← attemptCall fun pid => makeDirectory pid path (if rest = [] then mode else 0o777) with
      | none =>
        if isVerbose then emit l (l.name ++ ": created directory " ++ quoted path ++ ['\n'])
        makeWay mode isVerbose whole rest
      | some f =>
        say l ("cannot create directory " ++ quoted path ++ ": " ++ f.message)
        return false

def umaskOf : Proc Nat := do
  return ((← Proc.call fun pid => do return (← process pid).umask).toOption).getD 0o022

def mkdir : Proc Unit := do
  let g ← options l (.of "m:pvZ" "mode:=m parents=p verbose=v")
  if g.operands = [] then misuse l "missing operand"
  let mask ← umaskOf
  let mode ←
    match g.last? "m" with
    | none => pure none
    | some t =>
      match Mode.parse? t with
      | some c => pure (some (Mode.apply true mask 0o777 c))
      | none => fail l ("invalid mode " ++ cited t)
  let mut ok := true
  for path in g.operands do
    let made ←
      if g.has "p" then makeWay l 0o777 (g.has "v") path (wayTo (trimSlashes path))
      else
        match ← attemptCall fun pid => makeDirectory pid path 0o777 with
        | none =>
          if g.has "v" then emit l (l.name ++ ": created directory " ++ quoted path ++ ['\n'])
          pure true
        | some f =>
          say l ("cannot create directory " ++ quoted path ++ ": " ++ f.message)
          pure false
    match mode with
    | some m =>
      if made then
        let _ ← attemptCall fun pid => changeMode pid path m
    | none => pure ()
    ok := ok && made
  done ok

def removeUp : Nat → Text → Proc Bool
  | 0, _ => return true
  | fuel + 1, path => do
    if g.has "v" then emit l (l.name ++ ": removing directory, " ++ quoted path ++ ['\n'])
    match ← attemptCall fun pid => removeDirectory pid path with
    | none =>
      let up := directoryName path
      if g.has "p" ∧ '/' ∈ trimSlashes path ∧ up ≠ ['/'] then removeUp fuel up else return true
    | some f =>
      if g.has "ignore-fail-on-non-empty" ∧ f = .notEmpty then return true
      else
        say l ("failed to remove " ++ quoted path ++ ": " ++ f.message)
        return false

def rmdir : Proc Unit := do
  let g ← options l (.of "pv" "parents=p verbose=v ignore-fail-on-non-empty")
  if g.operands = [] then misuse l "missing operand"
  let mut ok := true
  for path in g.operands do
    ok := (← removeUp l g (path.length + 1) path) && ok
  done ok

/-! Removing. -/

def removeAll : Nat → Text → Proc Bool
  | 0, _ => return false
  | fuel + 1, path => do
    let recursive := g.has "r" || g.has "R"
    let refuse (f : Fault) : Proc Bool := do
      say l ("cannot remove " ++ quoted path ++ ": " ++ f.message)
      return false
    let removed (what : Text) : Proc Bool := do
      if g.has "v" then emit l ("removed " ++ what ++ quoted path ++ ['\n'])
      return true
    match ← statusAt false path with
    | .error .notFound => if g.has "f" then return true else refuse .notFound
    | .error .notDirectory => if g.has "f" then return true else refuse .notDirectory
    | .error f => refuse f
    | .ok st =>
      if st.kind = .directory then
        if recursive then do
          let mut ok := true
          for name in ← namesIn path do
            ok := (← removeAll fuel (under path name)) && ok
          if !ok then return false
          match ← attemptCall fun pid => removeDirectory pid path with
          | none => removed "directory "
          | some f => refuse f
        else if g.has "d" then
          match ← attemptCall fun pid => removeDirectory pid path with
          | none => removed "directory "
          | some f => refuse f
        else refuse .isDirectory
      else
        match ← attemptCall fun pid => unlink pid path with
        | none => removed []
        | some f => refuse f

def removalOptions (form : OptionForm) : Proc Given := do
  match parseFrom form false l.args {} with
  | .ok g => return g
  | .error e =>
    say l e
    for t in l.args do
      if t.head? = some '-' ∧ (← statusAt false t).toOption.isSome then
        let _ ← Proc.write 2 ("Try 'rm ./" ++ t ++ "' to remove the file " ++ quoted t ++ ".\n")
    let _ ← Proc.write 2 (hint l)
    Proc.exit 1

def rm : Proc Unit := do
  let g ← removalOptions l (.of "dfiIrRv"
    "force=f recursive=r dir=d verbose=v interactive::=i one-file-system no-preserve-root preserve-root::")
  if g.operands = [] ∧ !g.has "f" then misuse l "missing operand"
  let recursive := g.has "r" || g.has "R"
  let mut ok := true
  for path in g.operands do
    if recursive ∧ trimSlashes path = ['/'] ∧ !g.has "no-preserve-root" then
      say l "it is dangerous to operate recursively on '/'"
      say l "use --no-preserve-root to override this failsafe"
      ok := false
    else if recursive ∧ (lastName path = ['.'] ∨ lastName path = ['.', '.']) then
      say l ("refusing to remove '.' or '..' directory: skipping " ++ quoted path)
      ok := false
    else ok := (← removeAll l g 400 path) && ok
  done ok

/-! Copying. -/

structure Copying where
  recursive : Bool := false
  keepsLinks : Bool := false
  keepsAll : Bool := false
  isVerbose : Bool := false
  keepsOld : Bool := false
  removesFirst : Bool := false
  backup : Option Text := none

def backupEnding : Option Text :=
  if g.has "b" ∨ g.has "backup" ∨ g.has "S" then some ((g.last? "S").getD ['~']) else none

def keepOld (backup : Option Text) (target : Text) : Proc Unit :=
  match backup with
  | none => pure ()
  | some ending => do
    let _ ← attemptCall fun pid => rename pid target (target ++ ending)
    return ()

def copyContents (source target : Text) (mode : Nat) : Proc Bool := do
  match ← openInput source with
  | .error f =>
    say l ("cannot open " ++ quoted source ++ " for reading: " ++ f.message)
    return false
  | .ok input =>
    match ← openOutput target .forWriting (mode &&& 0o777) with
    | .error f =>
      closeFile input
      let f : Fault := if f = .isDirectory then .notDirectory else f
      say l ("cannot create regular file " ++ quoted target ++ ": " ++ f.message)
      return false
    | .ok output =>
      let t := (← Proc.readAll input).toOption.getD []
      closeFile input
      let r ← Proc.write output t
      closeFile output
      match r with
      | .ok () => return true
      | .error f =>
        say l ("error writing " ++ quoted target ++ ": " ++ f.message)
        return false

def copyLink (source target : Text) : Proc Bool := do
  if (← statusAt false target).toOption.isSome then
    let _ ← attemptCall fun pid => unlink pid target
  let r ← attemptCall fun pid => do
    match (← disk).content (← stat pid false source) with
    | .link t => makeLink pid t target
    | _ => throw .invalid
  match r with
  | none => return true
  | some f =>
    say l ("cannot create symbolic link " ++ quoted target ++ ": " ++ f.message)
    return false

def showCopy (how : Copying) (source target : Text) : Proc Unit :=
  if how.isVerbose then emit l (quoted source ++ " -> " ++ quoted target ++ ['\n']) else pure ()

def copyFile (how : Copying) (st : FileStatus) (source target : Text) (isThere : Bool) :
    Proc Bool := do
  if st.kind = .link then
    let ok ← copyLink l source target
    if ok then showCopy l how source target
    return ok
  else
    if how.removesFirst ∧ isThere then
      let _ ← attemptCall fun pid => unlink pid target
    if isThere then keepOld how.backup target
    showCopy l how source target
    let ok ← copyContents l source target st.mode
    if ok ∧ how.keepsAll then
      let _ ← attemptCall fun pid => changeMode pid target st.mode
      let _ ← attemptCall fun pid => changeTime pid target st.changed
    return ok

def copyRefusal? (how : Copying) (st : FileStatus) (old : Option FileStatus) (root : Option Nat)
    (start top source target : Text) : Option Text :=
  if st.kind = .directory ∧ !how.recursive then
    some ("-r not specified; omitting directory " ++ quoted source)
  else if root = some st.number then
    some ("cannot copy a directory, " ++ quoted start ++ ", into itself, " ++ quoted top)
  else
    match old with
    | none => none
    | some o =>
      if o.number = st.number ∧ st.kind ≠ .link then
        some (quoted source ++ " and " ++ quoted target ++ " are the same file")
      else if st.kind = .directory ∧ o.kind ≠ .directory then
        some ("cannot overwrite non-directory " ++ quoted target ++ " with directory " ++ quoted source)
      else if st.kind ≠ .directory ∧ o.kind = .directory then
        some ("cannot overwrite directory " ++ quoted target ++ " with non-directory")
      else none

/-- Copies a file or a directory to a path. `root` is the number of the directory that all is copied
to, once it is made, and `top` its path; `start` is what was to be copied. -/
def copyTo (how : Copying) (start top : Text) : Nat → Option Nat → Text → Text → Proc Bool
  | 0, _, _, _ => return false
  | fuel + 1, root, source, target => do
    let refuse (t : Text) : Proc Bool := do
      say l t
      return false
    match ← statusAt (!how.keepsLinks) source with
    | .error f => refuse ("cannot stat " ++ quoted source ++ ": " ++ f.message)
    | .ok st =>
      let old := (← statusAt true target).toOption
      match copyRefusal? how st old root start top source target with
      | some t => refuse t
      | none =>
        if st.kind ≠ .directory then
          if how.keepsOld ∧ old.isSome then return true
          else copyFile l how st source target old.isSome
        else do
          let made ←
            if old.isSome then pure none
            else
              match ← attemptCall fun pid => makeDirectory pid target 0o777 with
              | none =>
                showCopy l how source target
                pure none
              | some f => pure (some f)
          match made with
          | some f => refuse ("cannot create directory " ++ quoted target ++ ": " ++ f.message)
          | none =>
            let own := (← statusAt true target).toOption.map (·.number)
            let mut ok := true
            for name in ← namesIn source do
              ok := (← copyTo how start top fuel (root.or own) (under source name) (under target name)) && ok
            let _ ← attemptCall fun pid => changeMode pid target st.mode
            return ok

/-- What goes where: the sources with their targets. The last operand is the target, or the directory
for all. -/
def destinations (needs : Text) : Proc (List (Text × Text)) := do
  match g.last? "t" with
  | some dir =>
    if g.operands = [] then misuse l ("missing " ++ needs ++ " operand")
    match ← statusAt true dir with
    | .ok st =>
      if st.kind ≠ .directory then fail l ("target directory " ++ quoted dir ++ ": Not a directory")
      return g.operands.map fun s => (s, under dir (lastName s))
    | .error f => fail l ("target directory " ++ quoted dir ++ ": " ++ f.message)
  | none =>
    match g.operands.reverse with
    | [] => misuse l ("missing " ++ needs ++ " operand")
    | [only] => misuse l ("missing destination " ++ needs ++ " operand after " ++ cited only)
    | [target, source] =>
      if g.has "T" then return [(source, target)]
      else if ← isDirectoryAt target then return [(source, under target (lastName source))]
      else return [(source, target)]
    | target :: sources =>
      if g.has "T" then
        misuse l ("extra operand " ++ cited ((g.operands.drop 2).headD []))
      match ← statusAt true target with
      | .ok st =>
        if st.kind ≠ .directory then fail l ("target " ++ quoted target ++ ": Not a directory")
        return sources.reverse.map fun s => (s, under target (lastName s))
      | .error f => fail l ("target " ++ quoted target ++ ": " ++ f.message)

def cp : Proc Unit := do
  let g ← options l (.of "abdfHilLnpPrRsS:t:Tuvx"
    ("archive=a backup:: suffix:=S force=f interactive=i dereference=L no-clobber=n no-dereference=P preserve::=p recursive=r " ++
      "target-directory:=t no-target-directory=T update::=u verbose=v remove-destination parents link=l symbolic-link=s"))
  let recursive := g.has "r" || g.has "R" || g.has "a"
  let how : Copying :=
    { recursive := recursive
      keepsLinks := (recursive || g.has "d" || g.has "P") && !g.has "L"
      keepsAll := g.has "a" || g.has "p"
      isVerbose := g.has "v"
      keepsOld := g.has "n"
      removesFirst := g.has "remove-destination"
      backup := backupEnding g }
  let pairs ← destinations l g "file"
  if g.has "n" then
    say l "warning: behavior of -n is non-portable and may change in future; use --update=none instead"
  let mut ok := true
  for (source, target) in pairs do
    let asks := g.has "i" && (← statusAt true target).toOption.isSome
    if asks then
      let _ ← Proc.write 2 (l.name ++ ": overwrite " ++ quoted target ++ "? ")
      ok := false
    else ok := (← copyTo l how (trimSlashes source) target 400 none source target) && ok
  done ok

/-! Moving. -/

def moveTo (source target : Text) : Proc Bool := do
  let refuse (t : Text) : Proc Bool := do
    say l t
    return false
  match ← statusAt false (trimSlashes source) with
  | .error f => refuse ("cannot stat " ++ quoted source ++ ": " ++ f.message)
  | .ok st =>
    let old := (← statusAt false target).toOption
    match old with
    | some o =>
      if o.number = st.number ∧ (st.kind ≠ .directory ∨ trimSlashes source = trimSlashes target) then
        return ← refuse (quoted source ++ " and " ++ quoted target ++ " are the same file")
      else if st.kind = .directory ∧ o.kind ≠ .directory then
        return ← refuse ("cannot overwrite non-directory " ++ quoted target ++ " with directory " ++ quoted source)
      else if st.kind ≠ .directory ∧ o.kind = .directory then
        return ← refuse ("cannot overwrite directory " ++ quoted target ++ " with non-directory")
      else if g.has "n" then return ← refuse ("not replacing " ++ quoted target)
    | none =>
      if st.kind ≠ .directory ∧ target.getLast? = some '/' then
        return ← refuse ("cannot move " ++ quoted source ++ " to " ++ quoted target ++ ": Not a directory")
    if old.isSome then keepOld (backupEnding g) target
    match ← attemptCall fun pid => rename pid (trimSlashes source) (trimSlashes target) with
    | none =>
      if g.has "v" then emit l ("renamed " ++ quoted source ++ " -> " ++ quoted target ++ ['\n'])
      return true
    | some .invalid =>
      refuse ("cannot move " ++ quoted source ++ " to a subdirectory of itself, " ++ quoted target)
    | some .notEmpty => refuse ("cannot overwrite " ++ quoted target ++ ": " ++ Fault.message .notEmpty)
    | some f => refuse ("cannot move " ++ quoted source ++ " to " ++ quoted target ++ ": " ++ f.message)

def mv : Proc Unit := do
  let g ← options l (.of "bfinS:t:Tuv"
    ("backup:: suffix:=S force=f interactive=i no-clobber=n target-directory:=t no-target-directory=T update::=u verbose=v " ++
      "strip-trailing-slashes"))
  let mut ok := true
  for (source, target) in ← destinations l g "file" do
    ok := (← moveTo l g source target) && ok
  done ok

/-! Links. -/

def relativeNames : List Text → List Text → List Text
  | a :: base, b :: path => if a = b then relativeNames base path else (a :: base).map (fun _ => ['.', '.']) ++ b :: path
  | base, path => base.map (fun _ => ['.', '.']) ++ path

def namesFromRoot (cwd path : Text) : List Text :=
  let all := if path.head? = some '/' then Disk.steps path else Disk.steps cwd ++ Disk.steps path
  (all.foldl (fun got n => if n = ['.', '.'] then got.drop 1 else n :: got) []).reverse

def currentDirectory : Proc Text := do
  return (← Proc.call fun pid => Sys.currentDirectory pid).toOption.getD ['/']

def linkTo (source target : Text) : Proc Bool := do
  let isSymbolic := g.has "s"
  let arrow : Text := if isSymbolic then " -> " else " => "
  let kind : Text := if isSymbolic then "symbolic" else "hard"
  let refuse (t : Text) : Proc Bool := do
    say l t
    return false
  let proceed : Option Text ←
    if isSymbolic then pure none
    else
      match ← statusAt false source with
      | .error f => pure (some ("failed to access " ++ quoted source ++ ": " ++ f.message))
      | .ok st =>
        if st.kind = .directory then pure (some (shown source ++ ": hard link not allowed for directory"))
        else pure none
  match proceed with
  | some t => refuse t
  | none =>
    if g.has "f" then
      let same := (← statusAt false source).toOption.map (·.number)
      let old := (← statusAt false target).toOption
      if old.isSome ∧ !isSymbolic ∧ same = old.map (·.number) then return true
      if old.any (·.kind = .directory) then
        return ← refuse (shown target ++ ": cannot overwrite directory")
      let _ ← attemptCall fun pid => unlink pid target
    let cwd ← currentDirectory
    let text :=
      if g.has "r" ∧ isSymbolic then
        ['/'].intercalate (relativeNames (namesFromRoot cwd (directoryName target)) (namesFromRoot cwd source))
      else source
    let r ← attemptCall fun pid =>
      if isSymbolic then (if text = [] then throw .notFound else makeLink pid text target)
      else addName pid source target
    match r with
    | none =>
      if g.has "v" then emit l (quoted target ++ arrow ++ quoted text ++ ['\n'])
      return true
    | some .alreadyExists =>
      refuse ("failed to create " ++ kind ++ " link " ++ quoted target ++ ": File exists")
    | some f =>
      refuse ("failed to create " ++ kind ++ " link " ++ quoted target ++ arrow ++ quoted source ++ ": " ++ f.message)

def ln : Proc Unit := do
  let g ← options l (.of "bdfFiLnPrsSt:Tv"
    ("force=f no-dereference=n relative=r symbolic=s target-directory:=t no-target-directory=T verbose=v " ++
      "logical=L physical=P"))
  let pairs ←
    match g.operands, g.last? "t" with
    | [source], none => pure [(source, "./" ++ lastName source)]
    | [source, target], none => do
      let st := (← statusAt (!g.has "n") target).toOption
      if g.has "T" ∨ !(st.any (·.kind = .directory)) then pure [(source, target)]
      else pure [(source, under target (lastName source))]
    | _, _ => destinations l g "file"
  let mut ok := true
  for (source, target) in pairs do
    ok := (← linkTo l g source target) && ok
  done ok

/-! Times and permissions. -/

def stampTime? (now : Instant) (t : Text) : Option Instant :=
  let (digits, part) := (Text.cutAt (· == '.') t).getD (t, "00")
  let year := now.dateTime.year
  let full : Option Text :=
    if digits.length = 12 then some digits
    else if digits.length = 10 then
      (natural? (digits.take 2)).map fun y => Text.ofNat (if y < 69 then 2000 + y else 1900 + y) ++ digits.drop 2
    else if digits.length = 8 then some (Text.ofNat year ++ digits)
    else none
  full.bind fun f =>
    (natural? f).bind fun n =>
      (natural? part).bind fun s =>
        let (y, m, d) := (n / 100000000, n / 1000000 % 100, n / 10000 % 100)
        if DateText.isDate y m d then
          let days := DateTime.daysFromCivil ⟨y, m, d, 0, 0, 0⟩
          some ⟨(days * 86400 + n / 100 % 100 * 3600 + n % 100 * 60 + s) * 1000⟩
        else none

def touch : Proc Unit := do
  let g ← options l (.of "acd:fhmr:t:" "no-create=c date:=d no-dereference=h reference:=r time:")
  let now ← Proc.look (·.clock)
  let moment : Option Nat ←
    match g.last? "d", g.last? "t", g.last? "r" with
    | some t, _, _ =>
      match DateText.parse? now t with
      | some i => pure (some (i.millis * 1000000))
      | none => fail l ("invalid date format " ++ cited t)
    | _, some t, _ =>
      match stampTime? now t with
      | some i => pure (some (i.millis * 1000000))
      | none => fail l ("invalid date format " ++ cited t)
    | _, _, some path =>
      match ← statusAt true path with
      | .ok st => pure (some st.changed)
      | .error f => fail l ("failed to get attributes of " ++ quoted path ++ ": " ++ f.message)
    | none, none, none => pure none
  if g.operands = [] then misuse l "missing file operand"
  let mut ok := true
  for path in g.operands do
    let isThere := (← statusAt true path).toOption.isSome
    if !isThere ∧ g.has "c" then pure ()
    else
      let r ← Proc.call fun pid => do
        if !isThere then
          if path.getLast? = some '/' then throw .isDirectory
          close pid (← openFrom pid 3 path { canWrite := true, creates := true } 0o666)
        changeTime pid path (moment.getD (← stamp))
      match r with
      | .ok () => pure ()
      | .error .isDirectory =>
        say l ("setting times of " ++ quoted path ++ ": No such file or directory")
        ok := false
      | .error f =>
        say l ("cannot touch " ++ quoted path ++ ": " ++ f.message)
        ok := false
  done ok

def changeModes (change : Mode.Change) (mask : Nat) : Nat → Text → Proc Bool
  | 0, _ => return false
  | fuel + 1, path => do
    match ← statusAt true path with
    | .error f => do
      let isDangling := (← statusAt false path).toOption.isSome
      if !g.has "f" then
        if isDangling then say l ("cannot operate on dangling symlink " ++ quoted path)
        else say l ("cannot access " ++ quoted path ++ ": " ++ f.message)
      return false
    | .ok st => do
      let new := Mode.apply (st.kind = .directory) mask st.mode change
      let _ ← attemptCall fun pid => changeMode pid path new
      let write_ (m : Nat) : Text := Mode.fourDigits m ++ " (" ++ Mode.letters m ++ ")"
      if new ≠ st.mode then
        if g.has "v" ∨ g.has "c" then
          emit l ("mode of " ++ quoted path ++ " changed from " ++ write_ st.mode ++ " to " ++ write_ new ++ ['\n'])
      else if g.has "v" then emit l ("mode of " ++ quoted path ++ " retained as " ++ write_ new ++ ['\n'])
      let mut ok := true
      if g.has "R" ∧ st.kind = .directory then
        for name in ← namesIn path do
          ok := (← changeModes change mask fuel (under path name)) && ok
      return ok

def shieldMode : List Text → List Text
  | ('-' :: c :: more) :: rest =>
    if c ∈ ("rwxXstugo".toList) then ("--".toList :: ('-' :: c :: more) :: rest)
    else ('-' :: c :: more) :: shieldMode rest
  | args => args

def chmod : Proc Unit := do
  let g ← options { l with args := shieldMode l.args }
    (.of "cfvR" "changes=c silent=f quiet=f verbose=v recursive=R reference: preserve-root no-preserve-root")
  let mask ← umaskOf
  let (change, paths) ←
    match g.last? "reference", g.operands with
    | some path, paths =>
      match ← statusAt true path with
      | .ok st => pure (Mode.Change.exact st.mode, paths)
      | .error f => fail l ("failed to get attributes of " ++ quoted path ++ ": " ++ f.message)
    | none, [] => misuse l "missing operand"
    | none, [mode] => misuse l ("missing operand after " ++ cited mode)
    | none, mode :: paths =>
      match Mode.parse? mode with
      | some c => pure (c, paths)
      | none => misuse l ("invalid mode: " ++ cited mode)
  let mut ok := true
  for path in paths do
    ok := (← changeModes l g change mask 400 path) && ok
  done ok

/-! Names that nobody uses yet. -/

def nameLetters : Text := "0123456789ABCDEFGHIJKLMNOPQRSTUVWXYZabcdefghijklmnopqrstuvwxyz"

def chanceLetters : Nat → Proc Text
  | 0 => return []
  | n + 1 => do
    let k := (← Proc.call fun _ => random).toOption.getD 0
    return nameLetters.getD (k % 62) 'a' :: (← chanceLetters n)

def mktemp : Proc Unit := do
  let g ← options l (.of "dup:qt" "directory=d dry-run=u quiet=q suffix: tmpdir::=p")
  let template := g.operands.headD "tmp.XXXXXXXXXX"
  if 1 < g.operands.length then misuse l "too many templates"
  let suffix := (g.last? "suffix").getD []
  let place : Text :=
    match g.last? "p" with
    | some d => if d = [] then (l.env.get? "TMPDIR").getD "/tmp" else d
    | none => (l.env.get? "TMPDIR").getD "/tmp"
  let usesPlace := g.operands = [] || g.has "p" || g.has "t"
  -- The last run of marks is what gets replaced.
  let reversed := template.reverse
  let ending := reversed.takeWhile (· != 'X')
  let marks := (reversed.drop ending.length).takeWhile (· == 'X')
  if marks.length < 3 then fail l ("too few X's in template " ++ cited template)
  let head := (reversed.drop (ending.length + marks.length)).reverse
  let letters ← chanceLetters marks.length
  let whole (middle : Text) : Text :=
    let name := head ++ middle ++ ending.reverse ++ suffix
    if usesPlace then under place name else name
  let path := whole letters
  let what : Text := if g.has "d" then "directory" else "file"
  let r ←
    if g.has "u" then pure none
    else if g.has "d" then
      attemptCall fun pid => makeDirectory pid path 0o700
    else
      attemptCall fun pid => do
        close pid (← openFrom pid 3 path { canWrite := true, creates := true, exclusive := true } 0o600)
  match r with
  | none =>
    emit l (path ++ ['\n'])
    done true
  | some f =>
    if !g.has "q" then
      say l ("failed to create " ++ what ++ " via template " ++ cited (whole marks) ++ ": " ++ f.message)
    done false

def mkfifo : Proc Unit := do
  let g ← options l (.of "m:Z" "mode:=m")
  if g.operands = [] then misuse l "missing operand"
  let mut ok := true
  for path in g.operands do
    match ← attemptCall fun pid => makeQueue pid path 0o666 with
    | none => pure ()
    | some f =>
      say l ("cannot create fifo " ++ quoted path ++ ": " ++ f.message)
      ok := false
  done ok

def truncate : Proc Unit := do
  let g ← options l (.of "cor:s:" "no-create=c reference:=r size:=s")
  match g.last? "s" with
  | none => misuse l "you must specify either '--size' or '--reference'"
  | some t =>
    let sign := t.head?.filter fun c => c ∈ ("+-<>/%".toList)
    match sized? (if sign.isSome then t.drop 1 else t) with
    | none => fail l ("Invalid number: " ++ cited t)
    | some n => do
      if g.operands = [] then misuse l "missing file operand"
      let mut ok := true
      for path in g.operands do
        let r ← Proc.call fun pid => do
          let fd ← openFrom pid 3 path { canWrite := true, creates := !g.has "c" } 0o666
          let i ← stat pid true path
          match (← disk).content i with
          | .data old =>
            let size :=
              match sign with
              | some '+' => old.length + n
              | some '-' => old.length - n
              | some '<' => min old.length n
              | some '>' => max old.length n
              | _ => n
            let new := old.take size ++ List.replicate (size - old.length) '\x00'
            setDisk ((← disk).setContent i (← stamp) (.data new))
          | _ => pure ()
          close pid fd
        match r with
        | .ok () => pure ()
        | .error .notFound => if !g.has "c" then
            say l ("cannot open " ++ quoted path ++ " for writing: No such file or directory")
            ok := false
        | .error f =>
          say l ("cannot open " ++ quoted path ++ " for writing: " ++ f.message)
          ok := false
      done ok

end Runbook.Program
