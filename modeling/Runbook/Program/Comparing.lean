import Runbook.Program.Difference
import Runbook.Program.Listing

/-!
Programs that compare two files, byte by byte or line by line.
-/
namespace Runbook.Program
open Kernel

variable (l : Launch)

def namedHint : Text := l.name ++ ": " ++ hint l

def namedMisuse {α : Type} (t : Text) : Proc α := do
  let _ ← Proc.write 2 (l.name ++ ": " ++ t ++ '\n' :: namedHint l)
  Proc.exit 2

def namedOptions (form : OptionForm) : Proc Given :=
  match parseFrom form false l.args {} with
  | .ok g => return g
  | .error e => namedMisuse l e

/-! Bytes. -/

structure ByteDifference where
  number : Nat
  line : Nat
  old : Char
  new : Char

def byteDifferences : Nat → Nat → Text → Text → List ByteDifference
  | n, line, a :: as, b :: bs =>
    let rest := byteDifferences (n + 1) (if a = '\n' then line + 1 else line) as bs
    if a = b then rest else ⟨n, line, a, b⟩ :: rest
  | _, _, _, _ => []

def shownByte (c : Char) : Text :=
  let low (n : Nat) : Text := if n < 32 then ['^', Char.ofNat (n + 64)] else if n = 127 then "^?" else [Char.ofNat n]
  if c.toNat < 128 then low c.toNat else "M-" ++ low (c.toNat - 128)

def octalByte (c : Char) : Text := padLeft 3 (Nat.toDigits 8 c.toNat)

def cmp : Proc Unit := do
  let g ← namedOptions l (.of "bi:ln:s" "print-bytes=b ignore-initial:=i verbose=l bytes:=n quiet=s silent=s")
  let number (name t : Text) : Proc Nat :=
    match sized? t with
    | some n => return n
    | none => namedMisuse l ("invalid --" ++ name ++ " value " ++ quoted t)
  let (first, second, skips) ←
    match g.operands with
    | [] => namedMisuse l ("missing operand after " ++ quoted l.name)
    | [a] => pure (a, ['-'], [])
    | [a, b] => pure (a, b, [])
    | [a, b, x] => pure (a, b, [x])
    | [a, b, x, y] => pure (a, b, [x, y])
    | _ :: _ :: _ :: _ :: t :: _ => namedMisuse l ("extra operand " ++ quoted t)
  let given := (g.last? "i").map fun t => (t.splitOn ':')
  let skips := if skips = [] then given.getD [] else skips
  let skipFirst ← match skips[0]? with
    | some t => number "ignore-initial" t
    | none => pure 0
  let skipSecond ← match skips[1]? with
    | some t => number "ignore-initial" t
    | none => pure (if g.has "i" then skipFirst else 0)
  let limit ← match g.last? "n" with
    | some t => do pure (some (← number "bytes" t))
    | none => pure none
  let read (path : Text) (skip : Nat) : Proc Text := do
    match ← readOperand path with
    | .ok t =>
      let rest := t.drop skip
      return (limit.map (rest.take ·)).getD rest
    | .error f =>
      if !g.has "s" then say l (path ++ ": " ++ f.message)
      Proc.exit 2
  let a ← read first skipFirst
  let b ← if second = first then pure (a.drop 0) else read second skipSecond
  let found := byteDifferences 1 1 a b
  if g.has "s" then done (found.isEmpty && a.length = b.length)
  let shownBoth (d : ByteDifference) : Text := octalByte d.old ++ ' ' :: shownByte d.old ++ ' ' :: octalByte d.new ++ ' ' :: shownByte d.new
  if g.has "l" then
    let width := (Text.ofNat (max a.length b.length)).length
    for d in found do
      let both : Text :=
        if g.has "b" then octalByte d.old ++ ' ' :: padRight 4 (shownByte d.old) ++ ' ' :: octalByte d.new ++ ' ' :: shownByte d.new
        else octalByte d.old ++ ' ' :: octalByte d.new
      emit l (padLeft width (Text.ofNat d.number) ++ ' ' :: both ++ ['\n']) 2
  else
    match found with
    | d :: _ =>
      let head : Text := first ++ ' ' :: second ++ " differ: "
      let place : Text := Text.ofNat d.number ++ ", line " ++ Text.ofNat d.line
      if g.has "b" then emit l (head ++ "byte " ++ place ++ " is " ++ shownBoth d ++ ['\n']) 2
      else emit l (head ++ "char " ++ place ++ ['\n']) 2
      done false
    | [] => pure ()
  if a.length = b.length then done found.isEmpty
  else
    let (name, short) := if a.length < b.length then (first, a) else (second, b)
    let lines := short.count '\n'
    let place : Text :=
      if short = [] then " which is empty"
      else
        let after : Text := " after byte " ++ Text.ofNat short.length
        if g.has "l" then after
        else if short.getLast? = some '\n' then after ++ ", line " ++ Text.ofNat lines
        else after ++ ", in line " ++ Text.ofNat (lines + 1)
    say l ("EOF on " ++ name ++ place)
    done false

/-! Lines. -/

inductive DiffStyle where
  | plain
  | unified (around : Nat)
  | context (around : Nat)
  | brief
  | script
deriving DecidableEq

structure Comparing where
  style : DiffStyle := .plain
  foldsCase : Bool := false
  spaces : Option Char := none
  ignoresBlankLines : Bool := false
  reportsSame : Bool := false
  recursive : Bool := false
  missingAsEmpty : Bool := false
  missingOldAsEmpty : Bool := false
  asText : Bool := false
  labels : List Text := []
  excluded : List Text := []
  written : Text := []

def oneBlank : Bool → Text → Text
  | _, [] => []
  | before, c :: rest =>
    if isSpaceChar c then if before then oneBlank true rest else ' ' :: oneBlank true rest
    else c :: oneBlank false rest

def dropTrailing (p : Char → Bool) (t : Text) : Text := (t.reverse.dropWhile p).reverse

def comparedForm (k : Comparing) (t : Text) : Text :=
  let t := if k.foldsCase then t.map Char.toLower else t
  match k.spaces with
  | some 'w' => t.filter (!isSpaceChar ·)
  | some 'b' => oneBlank false (dropTrailing isSpaceChar t)
  | some 'Z' => dropTrailing isSpaceChar t
  | _ => t

def sidesOf (k : Comparing) (old new : List Text) : Difference.Sides :=
  let forms := old.map (comparedForm k) ++ new.map (comparedForm k)
  let ids := (forms.map fun t => forms.idxOf t).toArray
  ⟨ids.extract 0 old.length, ids.extract old.length ids.size⟩

def sharedStart : List Text → List Text → Nat
  | a :: as, b :: bs => if a = b then sharedStart as bs + 1 else 0
  | _, _ => 0

/-- The changes between two lists of lines. What they share at both ends is left out, but for as many
lines as are shown around a change. -/
def lineChanges (k : Comparing) (around : Nat) (old new : List Text) : List Difference.Change :=
  let first := sharedStart old new - around
  let (oldRest, newRest) := (old.drop first, new.drop first)
  let last := sharedStart oldRest.reverse newRest.reverse - around
  let sides := sidesOf k (oldRest.take (oldRest.length - last)) (newRest.take (newRest.length - last))
  (Difference.changes sides).map fun c => { c with oldStart := c.oldStart + first, newStart := c.newStart + first }

def lineRange (start count : Nat) : Text :=
  if count ≤ 1 then Text.ofNat (start + count)
  else Text.ofNat (start + 1) ++ ',' :: Text.ofNat (start + count)

def isWhole (t : Text) : Bool := t.getLast? = some '\n'

def markedLine (mark line : Text) : Text :=
  if isWhole line then mark ++ line else mark ++ line ++ "\n\\ No newline at end of file\n"

def plainChange (old new : List Text) (c : Difference.Change) : Text :=
  let letter : Char := if c.oldCount = 0 then 'a' else if c.newCount = 0 then 'd' else 'c'
  let gone := ((old.drop c.oldStart).take c.oldCount).flatMap (markedLine "< ")
  let come := ((new.drop c.newStart).take c.newCount).flatMap (markedLine "> ")
  lineRange c.oldStart c.oldCount ++ letter :: lineRange c.newStart c.newCount ++ '\n' :: gone ++
    (if letter = 'c' then "---\n".toList else []) ++ come

def scriptChange (new : List Text) (c : Difference.Change) : Text :=
  let come := ((new.drop c.newStart).take c.newCount).flatten
  let range := lineRange c.oldStart c.oldCount
  if c.newCount = 0 then range ++ "d\n"
  else if c.oldCount = 0 then range ++ "a\n" ++ come ++ ".\n"
  else range ++ "c\n" ++ come ++ ".\n"

def nearby (around : Nat) : List Difference.Change → List (List Difference.Change)
  | [] => []
  | c :: rest =>
    match nearby around rest with
    | (d :: ds) :: more =>
      if d.oldStart ≤ c.oldStart + c.oldCount + 2 * around then (c :: d :: ds) :: more else [c] :: (d :: ds) :: more
    | groups => [c] :: groups

def unifiedRange (start count : Nat) : Text :=
  if count = 0 then Text.ofNat start ++ ",0"
  else if count = 1 then Text.ofNat (start + 1)
  else Text.ofNat (start + 1) ++ ',' :: Text.ofNat count

def boundsOf (around oldSize newSize : Nat) (g : List Difference.Change) : Difference.Block :=
  match g.head?, g.getLast? with
  | some a, some z =>
    let before := min around a.oldStart
    let after := min around (oldSize - (z.oldStart + z.oldCount))
    let afterNew := min around (newSize - (z.newStart + z.newCount))
    ⟨a.oldStart - before, z.oldStart + z.oldCount + after, a.newStart - min around a.newStart,
      z.newStart + z.newCount + afterNew⟩
  | _, _ => ⟨0, 0, 0, 0⟩

def slice (lines : List Text) (start stop : Nat) : List Text := (lines.drop start).take (stop - start)

def unifiedGroup (around : Nat) (old new : List Text) (g : List Difference.Change) : Text :=
  let b := boundsOf around old.length new.length g
  let rec body (at_ : Nat) : List Difference.Change → Text
    | [] => (slice old at_ b.oldStop).flatMap (markedLine [' '])
    | c :: rest =>
      (slice old at_ c.oldStart).flatMap (markedLine [' ']) ++
        (slice old c.oldStart (c.oldStart + c.oldCount)).flatMap (markedLine ['-']) ++
        (slice new c.newStart (c.newStart + c.newCount)).flatMap (markedLine ['+']) ++
        body (c.oldStart + c.oldCount) rest
  "@@ -" ++ unifiedRange b.oldStart (b.oldStop - b.oldStart) ++ " +" ++
    unifiedRange b.newStart (b.newStop - b.newStart) ++ " @@\n" ++ body b.oldStart g

def contextRange (start stop : Nat) : Text :=
  if stop ≤ start + 1 then Text.ofNat stop else Text.ofNat (start + 1) ++ ',' :: Text.ofNat stop

def contextGroup (around : Nat) (old new : List Text) (g : List Difference.Change) : Text :=
  let b := boundsOf around old.length new.length g
  let rec oldBody (at_ : Nat) : List Difference.Change → Text
    | [] => (slice old at_ b.oldStop).flatMap (markedLine "  ")
    | c :: rest =>
      (slice old at_ c.oldStart).flatMap (markedLine "  ") ++
        (slice old c.oldStart (c.oldStart + c.oldCount)).flatMap (markedLine (if c.newCount = 0 then "- " else "! ")) ++
        oldBody (c.oldStart + c.oldCount) rest
  let rec newBody (at_ : Nat) : List Difference.Change → Text
    | [] => (slice new at_ b.newStop).flatMap (markedLine "  ")
    | c :: rest =>
      (slice new at_ c.newStart).flatMap (markedLine "  ") ++
        (slice new c.newStart (c.newStart + c.newCount)).flatMap (markedLine (if c.oldCount = 0 then "+ " else "! ")) ++
        newBody (c.newStart + c.newCount) rest
  "***************\n*** " ++ contextRange b.oldStart b.oldStop ++ " ****\n" ++
    (if g.any (0 < ·.oldCount) then oldBody b.oldStart g else []) ++ "--- " ++
    contextRange b.newStart b.newStop ++ " ----\n" ++ (if g.any (0 < ·.newCount) then newBody b.newStart g else [])

def titleLine (k : Comparing) (mark : Text) (i : Nat) (path : Text) (changed : Nat) (isUnified : Bool) : Text :=
  match k.labels[i]? with
  | some t => mark ++ t ++ ['\n']
  | none =>
    let moment : Instant := ⟨changed / 1000000⟩
    let time : Text :=
      if isUnified then TimeFormat.format moment "%Y-%m-%d %H:%M:%S." ++ padded 9 (changed % 1000000 * 1000) ++ " +0000"
      else TimeFormat.format moment "%a %b %e %H:%M:%S %Y"
    mark ++ path ++ '\t' :: time ++ ['\n']

structure ComparedFile where
  path : Text
  changed : Nat
  text : Text

def differencesText (k : Comparing) (a b : ComparedFile) : Option Text :=
  let isBinary (t : Text) : Bool := !k.asText && t.any (· == '\x00')
  if a.text = b.text then none
  else if isBinary a.text ∨ isBinary b.text then
    some ((if k.style = .brief then "Files " else "Binary files ") ++ a.path ++ " and " ++ b.path ++ " differ\n")
  else
    let (old, new) := (chunks '\n' a.text, chunks '\n' b.text)
    let blank (t : Text) : Bool := t = ['\n'] || t = []
    let counts (c : Difference.Change) : Bool :=
      !(k.ignoresBlankLines && (slice old c.oldStart (c.oldStart + c.oldCount)).all blank &&
        (slice new c.newStart (c.newStart + c.newCount)).all blank)
    let around :=
      match k.style with
      | .unified n | .context n => n
      | _ => 0
    let changes := (lineChanges k around old new).filter counts
    if changes = [] then none
    else
      match k.style with
      | .plain => some (changes.flatMap (plainChange old new))
      | .script => some (changes.reverse.flatMap (scriptChange new))
      | .brief => some ("Files " ++ a.path ++ " and " ++ b.path ++ " differ\n")
      | .unified n =>
        some (titleLine k "--- " 0 a.path a.changed true ++ titleLine k "+++ " 1 b.path b.changed true ++
          (nearby n changes).flatMap (unifiedGroup n old new))
      | .context n =>
        some (titleLine k "*** " 0 a.path a.changed false ++ titleLine k "--- " 1 b.path b.changed false ++
          (nearby n changes).flatMap (contextGroup n old new))

abbrev Verdict := Nat

def compareFiles (k : Comparing) (isInside : Bool) (first second : Text) : Proc Verdict := do
  let read (path : Text) : Proc (Except Fault ComparedFile) := do
    let changed := ((← statusAt true path).toOption.map (·.changed)).getD 0
    match ← readOperand path with
    | .ok t => return .ok ⟨path, changed, t⟩
    | .error f => return .error f
  let a ← read first
  let b ← if first = second then pure a else read second
  let absent (f : Fault) (allowed : Bool) : Bool := isInside && allowed && f = .notFound
  match a, b with
  | .error f, .ok b =>
    if absent f (k.missingAsEmpty || k.missingOldAsEmpty) then judged ⟨first, 0, []⟩ b
    else
      say l (first ++ ": " ++ f.message)
      return 2
  | .ok a, .error f =>
    if absent f k.missingAsEmpty then judged a ⟨second, 0, []⟩
    else
      say l (second ++ ": " ++ f.message)
      return 2
  | .error f, .error f' =>
    say l (first ++ ": " ++ f.message)
    say l (second ++ ": " ++ f'.message)
    return 2
  | .ok a, .ok b => judged a b
where
  judged (a b : ComparedFile) : Proc Verdict := do
    match differencesText k a b with
    | none =>
      if k.reportsSame then emit l ("Files " ++ a.path ++ " and " ++ b.path ++ " are identical\n") 2
      return 0
    | some t =>
      let isMessage := k.style = .brief || (!k.asText && (a.text ++ b.text).any (· == '\x00'))
      if isInside ∧ !isMessage then emit l ("diff" ++ k.written ++ ' ' :: first ++ ' ' :: second ++ ['\n']) 2
      emit l t 2
      return 1

def compareEntries (k : Comparing) : Nat → Text → Text → Proc Verdict
  | 0, _, _ => return 2
  | fuel + 1, first, second => do
    let meant (t : Text) : Bool := !(k.excluded.any fun p => Shell.Pattern.isMatch {} (Shell.Pattern.ofText false t) p)
    let names (path : Text) : Proc (List Text) := do return ((← namesIn path).filter meant).mergeSort Text.le
    let old ← names first
    let new ← names second
    let all := ((old ++ new).mergeSort Text.le).eraseDups
    let mut verdict := 0
    for name in all do
      let (a, b) := (under first name, under second name)
      let oldKind := (← statusAt true a).toOption.map (·.kind)
      let newKind := (← statusAt true b).toOption.map (·.kind)
      let isIn (side : List Text) : Bool := side.contains name
      if isIn old ∧ !isIn new ∧ !k.missingAsEmpty then
        emit l ("Only in " ++ first ++ ": " ++ name ++ ['\n']) 2
        verdict := max verdict 1
      else if isIn new ∧ !isIn old ∧ !(k.missingAsEmpty ∨ k.missingOldAsEmpty) then
        emit l ("Only in " ++ second ++ ": " ++ name ++ ['\n']) 2
        verdict := max verdict 1
      else if oldKind.all (· = .directory) ∧ newKind.all (· = .directory) then
        if k.recursive then
          let v ← compareEntries k fuel a b
          verdict := max verdict v
        else emit l ("Common subdirectories: " ++ a ++ " and " ++ b ++ ['\n']) 2
      else if oldKind = some .directory ∨ newKind = some .directory then
        let kindName (kind : Option Sys.FileKind) (path : Text) : Proc Text := do
          match kind with
          | some .directory => return "directory"
          | _ =>
            return if ((← statusAt true path).toOption.map (·.size)).getD 0 = 0 then "regular empty file" else "regular file"
        let (x, y) := (← kindName oldKind a, ← kindName newKind b)
        emit l ("File " ++ a ++ " is a " ++ x ++ " while file " ++ b ++ " is a " ++ y ++ ['\n']) 2
        verdict := max verdict 1
      else
        let v ← compareFiles l k true a b
        verdict := max verdict v
    return verdict

def diffForm : OptionForm :=
  .of "0123456789abBcC:deEF:hHiI:lL:nNpPqrsS:tTuU:vwW:x:X:yZ"
    ("text=a ignore-space-change=b ignore-blank-lines=B context::=C ed=e ignore-case=i label:=L new-file=N brief=q " ++
      "recursive=r report-identical-files=s unified::=U ignore-all-space=w exclude:=x ignore-trailing-space=Z " ++
      "unidirectional-new-file=P minimal=d speed-large-files=H expand-tabs=t initial-tab=T normal color:: " ++
      "strip-trailing-cr ignore-tab-expansion=E show-c-function=p no-dereference")

def comparingOf (g : Given) : Proc Comparing := do
  let digits := (g.options.filter fun (o, _) => o.length = 1 && o.all Char.isDigit).flatMap (·.1)
  let number (t : Text) : Proc Nat :=
    if t = [] then return (natural? digits).getD 3
    else
      match natural? t with
      | some n => return n
      | none => namedMisuse l ("invalid context length " ++ quoted t)
  let style ←
    match g.lastOf [['u'], ['U'], ['c'], ['C'], ['q'], ['e'], "normal"] with
    | some ['u'] => do pure (DiffStyle.unified (← number []))
    | some ['U'] => do pure (.unified (← number ((g.last? "U").getD [])))
    | some ['c'] => do pure (.context (← number []))
    | some ['C'] => do pure (.context (← number ((g.last? "C").getD [])))
    | some ['e'] => pure .script
    | _ => pure .plain
  let written := (l.args.takeWhile (· ≠ "--".toList)).filter fun t => t.head? = some '-' && t ≠ ['-']
  return {
    style := if g.has "q" then .brief else style
    foldsCase := g.has "i"
    spaces := if g.has "w" then some 'w' else if g.has "b" then some 'b' else if g.has "Z" then some 'Z' else none
    ignoresBlankLines := g.has "B"
    reportsSame := g.has "s"
    recursive := g.has "r"
    missingAsEmpty := g.has "N"
    missingOldAsEmpty := g.has "P"
    asText := g.has "a"
    labels := g.options.filterMap fun (o, v) => if o = ['L'] then some v else none
    excluded := g.options.filterMap fun (o, v) => if o = ['x'] then some v else none
    written := written.flatMap (' ' :: ·) }

def diff : Proc Unit := do
  let g ← namedOptions l diffForm
  let k ← comparingOf l g
  let (first, second) ←
    match g.operands with
    | [] => namedMisuse l ("missing operand after " ++ quoted ((l.args.getLast?).getD l.name))
    | [a] => namedMisuse l ("missing operand after " ++ quoted a)
    | [a, b] => pure (a, b)
    | _ :: _ :: c :: _ => namedMisuse l ("extra operand " ++ quoted c)
  let isDirectory (path : Text) : Proc Bool := if path = ['-'] then return false else isDirectoryAt path
  let a ← isDirectory first
  let b ← isDirectory second
  let verdict ←
    if a ∧ b then if first = second then pure 0 else compareEntries l k 1000 first second
    else if a ∧ second ≠ ['-'] ∧ (← statusAt true second).toOption.isSome then
      compareFiles l k false (under first (lastName second)) second
    else if b ∧ first ≠ ['-'] ∧ (← statusAt true first).toOption.isSome then
      compareFiles l k false first (under second (lastName first))
    else if a then
      say l (second ++ ": " ++ Fault.notFound.message)
      pure 2
    else if b then
      say l (first ++ ": " ++ Fault.notFound.message)
      pure 2
    else compareFiles l k false first second
  Proc.exit verdict

end Runbook.Program
