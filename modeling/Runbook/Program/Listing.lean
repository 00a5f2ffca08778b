import Runbook.Program.Placing

/-!
Programs that say what there is: names in directories, what is known of files, and parts of paths.
-/
namespace Runbook.Program
open Kernel

variable (l : Launch) (g : Given)

/-! Names in directories. -/

structure Entry where
  name : Text
  path : Text
  status : Sys.FileStatus

def kindLetter : Sys.FileKind → Char
  | .regular => '-'
  | .directory => 'd'
  | .link => 'l'
  | .queue => 'p'
  | .device => 'c'

def kindMark (st : Sys.FileStatus) : Text :=
  if g.has "F" then
    match st.kind with
    | .directory => ['/']
    | .link => ['@']
    | .queue => ['|']
    | .regular => if st.mode &&& 0o111 ≠ 0 then ['*'] else []
    | .device => []
  else if g.has "p" ∧ st.kind = .directory then ['/']
  else []

def blocksOf (st : Sys.FileStatus) : Nat :=
  match st.kind with
  | .regular | .directory => (st.size + 4095) / 4096 * 4
  | _ => 0

def listedName (t : Text) : Text :=
  let marked (own : Char) (c : Char) : Text :=
    if c = own ∨ c = '\\' then ['\\', c] else if Shell.isPrintable c then [c] else escapeOf c
  if g.has "Q" then '"' :: t.flatMap (marked '"') ++ ['"']
  else if g.has "b" then t.flatMap (marked ' ')
  else if g.has "q" then t.map fun c => if Shell.isPrintable c then c else '?'
  else t

def halfYear : Nat := 15778476

def listedTime (now : Instant) (changed : Nat) : Text :=
  let i : Instant := ⟨changed / 1000000⟩
  match g.last? "time-style" with
  | some ('+' :: format) => TimeFormat.format i format
  | some t =>
    if t = "full-iso" then TimeFormat.format i "%Y-%m-%d %H:%M:%S." ++ padded 9 (changed % 1000000000) ++ " +0000"
    else if t = "long-iso" then TimeFormat.format i "%Y-%m-%d %H:%M"
    else TimeFormat.format i "%m-%d %H:%M"
  | none =>
    if g.has "full-time" then
      TimeFormat.format i "%Y-%m-%d %H:%M:%S." ++ padded 9 (changed % 1000000000) ++ " +0000"
    else if i.seconds + halfYear < now.seconds ∨ now.seconds < i.seconds then TimeFormat.format i "%b %e  %Y"
    else TimeFormat.format i "%b %e %H:%M"

def shortSize (n : Nat) : Text :=
  let rec scale (fuel n rest : Nat) (units : Text) : Text :=
    match fuel, units with
    | fuel + 1, u :: us =>
      if n < 1024 then
        if n < 10 then
          let tenths := (n * 10 * 1024 + rest * 10 + 1023) / 1024
          if tenths < 100 then Text.ofNat (tenths / 10) ++ ['.'] ++ Text.ofNat (tenths % 10) ++ [u]
          else Text.ofNat ((tenths + 9) / 10) ++ [u]
        else Text.ofNat (if rest = 0 then n else n + 1) ++ [u]
      else scale fuel (n / 1024) (n % 1024) us
    | _, _ => Text.ofNat n
  if n < 1024 then Text.ofNat n else scale 6 (n / 1024) (n % 1024) "KMGTPE"

def linkTarget (path : Text) : Proc (Option Text) := do
  let r ← Proc.call fun pid => do
    match (← Sys.disk).content (← Sys.stat pid false path) with
    | .link t => return some t
    | _ => return none
  return r.toOption.getD none

def longLines (now : Instant) (es : List Entry) : Proc (List Text) := do
  let sizeText (st : Sys.FileStatus) : Text :=
    if st.kind = .device then "1, 3" else if g.has "h" then shortSize st.size else Text.ofNat st.size
  let owner : Text := if g.has "n" then "0" else "root"
  let linkWidth := (es.map fun e => (Text.ofNat e.status.links).length).foldl max 0
  let sizeWidth := (es.map fun e => (sizeText e.status).length).foldl max 0
  let inodeWidth := (es.map fun e => (Text.ofNat e.status.number).length).foldl max 0
  let mut lines := []
  for e in es do
    let st := e.status
    let target ← if st.kind = .link then linkTarget e.path else pure none
    let arrow : Text := (target.map fun t => " -> ".toList ++ t).getD []
    let inode : Text := if g.has "i" then padLeft inodeWidth (Text.ofNat st.number) ++ [' '] else []
    let owners : Text :=
      (if g.has "g" then [] else owner ++ [' ']) ++ (if g.has "o" ∨ g.has "G" then [] else owner ++ [' '])
    lines := (inode ++ kindLetter st.kind :: Mode.letters st.mode ++ ' ' :: padLeft linkWidth (Text.ofNat st.links) ++ ' ' ::
      owners ++ padLeft sizeWidth (sizeText st) ++ ' ' :: listedTime g now st.changed ++ ' ' :: listedName g e.name ++
      kindMark g { st with kind := if st.kind = .link then .device else st.kind } ++ arrow ++ ['\n']) :: lines
  return lines.reverse

def sortEntries (es : List Entry) : List Entry :=
  let byName (a b : Entry) : Bool := Text.le a.name b.name
  let ending (t : Text) : Text :=
    match Text.cutAtLast (· == '.') t with
    | some (_, e) => '.' :: e
    | none => []
  let sorted :=
    match g.lastOf ["U", "t", "S", "X", "f"] with
    | some ['U'] | some ['f'] => es
    | some ['t'] =>
      es.mergeSort fun a b => b.status.changed < a.status.changed || (a.status.changed = b.status.changed && byName a b)
    | some ['S'] => es.mergeSort fun a b => b.status.size < a.status.size || (a.status.size = b.status.size && byName a b)
    | some ['X'] =>
      es.mergeSort fun a b =>
        let (x, y) := (ending a.name, ending b.name)
        if x = y then byName a b else Text.le x y
    | _ => es.mergeSort byName
  if g.has "r" then sorted.reverse else sorted

def isLongListing : Bool := (["l", "n", "o", "g", "full-time"] : List Text).any g.has

def showEntries (now : Instant) (isDirectory : Bool) (es : List Entry) : Proc Unit := do
  let isLong := isLongListing g
  let es := sortEntries g es
  if isDirectory ∧ (isLong ∨ g.has "s") then
    let total := es.foldl (fun n e => n + blocksOf e.status) 0
    let text := if g.has "h" then (if total = 0 then ['0'] else shortSize (total * 1024)) else Text.ofNat total
    emit l ("total " ++ text ++ ['\n'])
  if isLong then
    for line in ← longLines g now es do
      emit l line
  else
    let blockWidth := (es.map fun e => (Text.ofNat (blocksOf e.status)).length).foldl max 0
    let one (e : Entry) : Text :=
      (if g.has "i" then Text.ofNat e.status.number ++ [' '] else []) ++
        (if g.has "s" then padLeft blockWidth (Text.ofNat (blocksOf e.status)) ++ [' '] else []) ++
        listedName g e.name ++ kindMark g e.status
    if g.has "m" then
      if !es.isEmpty then emit l (List.intercalate ", " (es.map one) ++ ['\n'])
    else if g.has "C" ∨ g.has "x" then
      if !es.isEmpty then emit l (List.intercalate "  " (es.map one) ++ ['\n'])
    else emit l (es.flatMap fun e => one e ++ ['\n'])

def entriesOf (path : Text) : Proc (List Entry) := do
  let names := (← namesIn path).filter fun n =>
    (g.has "a" || g.has "A" || g.has "f" || n.head? ≠ some '.') && !(g.has "B" && n.getLast? = some '~')
  let names := if g.has "a" ∨ g.has "f" then ['.'] :: ['.', '.'] :: names else names
  let mut es := []
  for n in names do
    let full := under path n
    match ← statusAt (g.has "L") full with
    | .ok st => es := ⟨n, full, st⟩ :: es
    | .error _ => pure ()
  return es.reverse

/-- Shows a directory and, if asked, those below it. `isFirst` tells that nothing was shown before. -/
def listDirectory (now : Instant) (titled : Bool) : Nat → Bool → Text → Proc Unit
  | 0, _, _ => return ()
  | fuel + 1, isFirst, path => do
    if titled then emit l ((if isFirst then [] else ['\n']) ++ listedName g path ++ ":\n")
    let es ← entriesOf g path
    showEntries l g now true es
    if g.has "R" then
      for e in sortEntries g es do
        if e.status.kind = .directory ∧ e.name ≠ ['.'] ∧ e.name ≠ ['.', '.'] then
          listDirectory now true fuel false e.path

def lsForm : OptionForm :=
  .of "aAbBcCdfFgGhHiIklLmnNopqQrRsStTuUvwxXZ1"
    ("all=a almost-all=A escape=b ignore-backups=B color:: directory=d classify::=F full-time no-group=G " ++
      "human-readable=h inode=i dereference=L numeric-uid-gid=n literal=N hide-control-chars=q quote-name=Q " ++
      "reverse=r recursive=R size=s sort: time: time-style: width: group-directories-first file-type=p " ++
      "indicator-style: format: quoting-style: show-control-chars hide: ignore:")

def ls : Proc Unit := do
  let g ← options l lsForm 2
  let now ← Proc.look (·.clock)
  let paths := if g.operands = [] then [['.']] else g.operands
  let isLong := isLongListing g
  let mut files : List Entry := []
  let mut dirs : List Entry := []
  let mut ok := true
  for path in paths do
    let keepsLink := g.has "d" || ((isLong || g.has "F") && !g.has "L")
    let st ← statusAt (!keepsLink) path
    let st ←
      match st with
      | .error _ => statusAt false path
      | .ok st => pure (.ok st)
    match st with
    | .error f =>
      say l ("cannot access " ++ quoted path ++ ": " ++ f.message)
      ok := false
    | .ok st =>
      if st.kind = .directory ∧ !g.has "d" then dirs := dirs ++ [⟨path, path, st⟩]
      else files := files ++ [⟨path, path, st⟩]
  if !files.isEmpty then showEntries l g now false files
  let titled := 1 < paths.length || g.has "R"
  let mut isFirst := files.isEmpty
  for d in sortEntries g dirs do
    listDirectory l g now titled 300 isFirst d.path
    isFirst := false
  Proc.exit (if ok then 0 else 2)

/-! Parts of paths. -/

def withoutEnding (ending name : Text) : Text :=
  if ending ≠ [] ∧ name ≠ ending ∧ Text.endsWith name ending then name.take (name.length - ending.length) else name

def basename : Proc Unit := do
  let g ← leadingOptions l (.of "as:z" "multiple=a suffix:=s zero=z")
  let stop := g.stop
  let many := g.has "a" || g.has "s"
  match g.operands with
  | [] => misuse l "missing operand"
  | first :: rest =>
    if !many ∧ 1 < rest.length then misuse l ("extra operand " ++ cited (rest.getD 1 []))
    let ending := if many then (g.last? "s").getD [] else rest.headD []
    let paths := if many then g.operands else [first]
    emit l (paths.flatMap fun p => withoutEnding ending (lastName p) ++ [stop])
    done true

def dirname : Proc Unit := do
  let g ← options l (.of "z" "zero=z")
  if g.operands = [] then misuse l "missing operand"
  emit l (g.operands.flatMap fun p => directoryName p ++ [g.stop])
  done true

inductive Existing where
  | all
  | allButLast
  | nothing
deriving DecidableEq

def followNames (d : Disk) (how : Existing) : Nat → List Text → List Text → Except Fault (List Text)
  | 0, _, _ => .error .tooManyLinks
  | _, at_, [] => .ok at_
  | fuel + 1, at_, name :: rest =>
    if name = ['.', '.'] then followNames d how fuel (at_.drop 1) rest
    else
      let here := at_.reverse.flatMap ('/' :: ·)
      match d.find Disk.root true (if here = [] then ['/'] else here) with
      | .error f => if how = .nothing then .ok (rest.reverse ++ name :: at_) else .error f
      | .ok spot =>
        let dir := spot.node.getD Disk.root
        match d.child? dir name with
        | some i =>
          match d.content i with
          | .link target =>
            if target.head? = some '/' then followNames d how fuel [] (Disk.steps target ++ rest)
            else followNames d how fuel at_ (Disk.steps target ++ rest)
          | .directory .. => followNames d how fuel (name :: at_) rest
          | _ =>
            if rest = [] ∨ how = .nothing then followNames d how fuel (name :: at_) rest else .error .notDirectory
        | none =>
          if how = .nothing ∨ (how = .allButLast ∧ rest = []) then followNames d how fuel (name :: at_) rest
          else .error .notFound

def resolve (how : Existing) (path : Text) : Proc (Except Fault Text) := do
  if path = [] then return .error .notFound
  let cwd ← currentDirectory
  let d ← Proc.look (·.disk)
  let start := if path.head? = some '/' then [] else (Disk.steps cwd).reverse
  return (followNames d how 2000 start (Disk.steps path)).map fun names =>
    if names = [] then ['/'] else names.reverse.flatMap ('/' :: ·)

def readlink : Proc Unit := do
  let g ← options l (.of "efmnqsvz"
    "canonicalize=f canonicalize-existing=e canonicalize-missing=m no-newline=n quiet=q silent=s verbose=v zero=z")
  if g.operands = [] then misuse l "missing operand"
  let how : Option Existing :=
    match g.lastOf ["e", "f", "m"] with
    | some ['e'] => some .all
    | some ['f'] => some .allButLast
    | some _ => some .nothing
    | none => none
  let stop : Text :=
    if g.has "n" ∧ g.operands.length = 1 then [] else [g.stop]
  let mut ok := true
  for path in g.operands do
    let r ←
      match how with
      | some how => resolve how path
      | none =>
        match ← statusAt false path with
        | .error f => pure (.error f)
        | .ok st =>
          match ← linkTarget path with
          | some t => pure (.ok t)
          | none => pure (.error (if st.kind = .link then .notFound else .invalid))
    match r with
    | .ok t => emit l (t ++ stop)
    | .error f =>
      if g.has "v" then say l (refused path f)
      ok := false
  done ok

def realpath : Proc Unit := do
  let g ← options l (.of "eLmPqsz"
    ("canonicalize-existing=e canonicalize-missing=m logical=L physical=P quiet=q relative-to: relative-base: " ++
      "strip=s no-symlinks=s zero=z"))
  if g.operands = [] then misuse l "missing operand"
  let how : Existing := if g.has "e" then .all else if g.has "m" then .nothing else .allButLast
  let cwd ← currentDirectory
  let plain (path : Text) : Text :=
    let names := namesFromRoot cwd path
    if names = [] then ['/'] else names.flatMap ('/' :: ·)
  let mut ok := true
  for path in g.operands do
    let r ← if g.has "s" ∧ path ≠ [] then pure (.ok (plain path)) else resolve how path
    match r with
    | .error f =>
      if !g.has "q" then say l (refused path f)
      ok := false
    | .ok t =>
      let t ←
        match (g.last? "relative-to").or (g.last? "relative-base") with
        | none => pure t
        | some base =>
          let from_ := (← resolve how base).toOption.getD (plain base)
          if g.has "relative-base" ∧ !(Disk.steps from_).isPrefixOf (Disk.steps t) then pure t
          else
          let names := relativeNames (Disk.steps from_) (Disk.steps t)
          pure (if names = [] then ['.'] else ['/'].intercalate names)
      emit l (t ++ [g.stop])
  done ok

/-! What is known of a file. -/

def kindName (st : Sys.FileStatus) : Text :=
  match st.kind with
  | .regular => if st.size = 0 then "regular empty file" else "regular file"
  | .directory => "directory"
  | .link => "symbolic link"
  | .queue => "fifo"
  | .device => "character special file"

def wholeMode (st : Sys.FileStatus) : Nat :=
  (match st.kind with
  | .regular => 0o100000
  | .directory => 0o040000
  | .link => 0o120000
  | .queue => 0o010000
  | .device => 0o020000) + st.mode

def preciseTime (changed : Nat) : Text :=
  TimeFormat.format ⟨changed / 1000000⟩ "%Y-%m-%d %H:%M:%S." ++ padded 9 (changed % 1000000000) ++ " +0000"

def statField (path : Text) (target : Option Text) (st : Sys.FileStatus) (c : Char) : Text :=
  match c with
  | 'a' => Mode.octal st.mode
  | 'A' => kindLetter st.kind :: Mode.letters st.mode
  | 'b' => Text.ofNat (blocksOf st * 2)
  | 'B' => "512"
  | 'd' => "65024"
  | 'D' => "fe00"
  | 'f' => Nat.toDigits 16 (wholeMode st)
  | 'F' => kindName st
  | 'g' | 'u' => "0"
  | 'G' | 'U' => "root"
  | 'h' => Text.ofNat st.links
  | 'i' => Text.ofNat st.number
  | 'm' => "/"
  | 'n' => path
  | 'N' => quoted path ++ (target.map fun t => " -> " ++ quoted t).getD []
  | 'o' => "4096"
  | 's' => Text.ofNat st.size
  | 't' | 'T' => "0"
  | 'w' | 'x' | 'y' | 'z' => preciseTime st.changed
  | 'W' | 'X' | 'Y' | 'Z' => Text.ofNat (st.changed / 1000000000)
  | '%' => "%"
  | _ => "?"

/-- A format written out; escapes count if `escapes`. -/
def statText (field : Char → Text) (escapes : Bool) : Nat → Text → Text
  | 0, _ => []
  | _, [] => []
  | fuel + 1, '%' :: rest =>
    let flags := rest.takeWhile fun c => c ∈ ("-0+ #'".toList)
    let after := rest.drop flags.length
    let digits := after.takeWhile Char.isDigit
    let width := (natural? digits).getD 0
    match after.drop digits.length with
    | [] => ['%']
    | c :: more =>
      let t := field c
      let filled :=
        if '-' ∈ flags then padRight width t
        else if '0' ∈ flags then List.replicate (width - t.length) '0' ++ t
        else padLeft width t
      filled ++ statText field escapes fuel more
  | fuel + 1, '\\' :: c :: rest =>
    if escapes then
      match Shell.simpleEscape c with
      | some e => e :: statText field escapes fuel rest
      | none => '\\' :: c :: statText field escapes fuel rest
    else '\\' :: statText field escapes fuel (c :: rest)
  | fuel + 1, c :: rest => c :: statText field escapes fuel rest

def statUsual : Text :=
  "  File: %n\n  Size: %-10s\tBlocks: %-10b IO Block: %-6o %F\nDevice: 254,0\tInode: %-11i Links: %h\n" ++
    "Access: (%04a/%10.A)  Uid: (    0/    root)   Gid: (    0/    root)\nAccess: %x\nModify: %y\nChange: %z\n Birth: %w\n"

def stat : Proc Unit := do
  let g ← options l (.of "c:fLt" "format:=c printf: dereference=L file-system=f terse=t")
  if g.operands = [] then misuse l "missing operand"
  let mut ok := true
  for path in g.operands do
    let st ← if path = ['-'] then Proc.call fun pid => Sys.descriptorStatus pid 0 else statusAt (g.has "L") path
    match st with
    | .error f =>
      say l ("cannot statx " ++ quoted path ++ ": " ++ f.message)
      ok := false
    | .ok st =>
      let target ← if st.kind = .link then linkTarget path else pure none
      let field := statField path target st
      match g.lastOf [['c'], "printf"] with
      | some ['c'] =>
        let format := (g.last? "c").getD []
        emit l (statText field false (format.length + 1) format ++ ['\n'])
      | some _ =>
        let format := (g.last? "printf").getD []
        emit l (statText field true (format.length + 1) format)
      | none =>
        let format := statUsual.filter (· ≠ '.')
        emit l (statText field false (format.length + 1) format)
  done ok

def pwd : Proc Unit := do
  let g ← options l (.of "LP" "logical=L physical=P")
  if g.operands ≠ [] then say l "ignoring non-option arguments"
  emit l ((← currentDirectory) ++ ['\n'])
  done true

end Runbook.Program
