import Runbook.Program.Basic
import Runbook.Shell.Regex

/-!
Programs that pass text on as it is, in part, or line by line.
-/
namespace Runbook.Program
open Kernel

variable (l : Launch) (g : Given)

/-! Copying. -/

def loopLimit : Nat := 1000000000

def pump (fd : Nat) : Nat → Proc (Except Fault Unit)
  | 0 => return .ok ()
  | fuel + 1 => do
    match ← Proc.read fd 131072 with
    | .error f => return .error f
    | .ok [] => return .ok ()
    | .ok t =>
      emit l t
      pump fd fuel

structure Decoration where
  numbers : Bool := false
  numbersFilled : Bool := false
  marksEnds : Bool := false
  marksTabs : Bool := false
  marksOthers : Bool := false
  squeezes : Bool := false

def visibleChar (n : Nat) : Text :=
  if n < 32 then ['^', Char.ofNat (n + 64)]
  else if n < 127 then [Char.ofNat n]
  else if n = 127 then "^?"
  else if n < 128 + 32 then "M-^" ++ [Char.ofNat (n - 128 + 64)]
  else if n < 255 then "M-" ++ [Char.ofNat (n - 128)]
  else "M-^?"

/-- Where decoration stands: the number of the last line, whether a line starts, and how many empty
lines have just gone by. -/
structure DecorationState where
  number : Nat := 0
  atStart : Bool := true
  blanks : Nat := 0

def padLeft (width : Nat) (t : Text) : Text := List.replicate (width - t.length) ' ' ++ t

def padRight (width : Nat) (t : Text) : Text := t ++ List.replicate (width - t.length) ' '

def decorateLine (d : Decoration) (s : DecorationState) (line : Text) : Text × DecorationState :=
  let hasEnd := line.getLast? = some '\n'
  let body := if hasEnd then line.dropLast else line
  let isBlank := s.atStart && body = []
  if isBlank && d.squeezes && 0 < s.blanks then ([], s)
  else
    let counts := s.atStart && (d.numbersFilled && body ≠ [] || d.numbers && !d.numbersFilled)
    let number := if counts then s.number + 1 else s.number
    let lead := if counts then padLeft 6 (Text.ofNat number) ++ ['\t'] else []
    let one (c : Char) : Text :=
      if c = '\t' then (if d.marksTabs then "^I" else ['\t'])
      else if d.marksOthers then visibleChar c.toNat
      else [c]
    let body := body.flatMap one
    let ending := if hasEnd then (if d.marksEnds then "$\n".toList else ['\n']) else []
    (lead ++ body ++ ending, ⟨number, hasEnd, if isBlank then s.blanks + 1 else 0⟩)

def decorate (d : Decoration) (s : DecorationState) (t : Text) : Text × DecorationState :=
  let (parts, s) := (chunks '\n' t).foldl (fun (got, s) line =>
    let (t, s) := decorateLine d s line
    (t :: got, s)) ([], s)
  (parts.reverse.flatten, s)

def catForm : OptionForm :=
  .of "AbeEnstTuv"
    "show-all=A number-nonblank=b show-ends=E number=n squeeze-blank=s show-tabs=T show-nonprinting=v"

def cat : Proc Unit := do
  let g ← options l catForm
  let any (keys : List Text) : Bool := keys.any g.has
  let d : Decoration :=
    { numbers := g.has "n" || g.has "b"
      numbersFilled := g.has "b"
      marksEnds := any ["A", "e", "E"]
      marksTabs := any ["A", "t", "T"]
      marksOthers := any ["A", "e", "t", "v"]
      squeezes := g.has "s" }
  let isPlain := !(d.numbers || d.marksEnds || d.marksTabs || d.marksOthers || d.squeezes)
  let mut ok := true
  let mut s : DecorationState := {}
  for path in g.inputs do
    match ← openOperand path with
    | .error f =>
      say l (refused path f)
      ok := false
    | .ok fd =>
      let isSame := (← Proc.call fun pid => do
        let input := (← Sys.fileOf pid fd).2.backing
        let output := (← Sys.fileOf pid 1).2.backing
        match input, output with
        | .node i a _, .node j _ isAppend =>
          let size := (Sys.statusOf (← Sys.disk) i).size
          return i == j && (Sys.statusOf (← Sys.disk) i).kind == .regular && a < size && (isAppend || a < size)
        | _, _ => return false).toOption.getD false
      if isSame then
        say l (shown path ++ ": input file is output file")
        ok := false
      else if isPlain then
        match ← pump l fd loopLimit with
        | .ok () => pure ()
        | .error f =>
          say l (refused path f)
          ok := false
      else
        match ← Proc.readAll fd with
        | .ok t =>
          let (out, next) := decorate d s t
          s := next
          emit l out
        | .error f =>
          say l (refused path f)
          ok := false
      if path ≠ ['-'] then closeFile fd
  done ok

/-! The start and the end of files. -/

/-- How much is shown: so much, or all but so much, of lines or of bytes. -/
structure Extent where
  ofLines : Bool := true
  fromOtherSide : Bool := false
  count : Nat := 10

def legacyNumber : List Text → List Text
  | ('-' :: c :: more) :: rest =>
    if c.isDigit then
      let digits := (c :: more).takeWhile Char.isDigit
      let letters := (c :: more).drop digits.length
      let inBytes := 'c' ∈ letters
      let others := letters.filter fun c => c ≠ 'c' ∧ c ≠ 'l'
      (if inBytes then "-c" ++ digits else "-n" ++ digits) ::
        (if others = [] then rest else ('-' :: others) :: rest)
    else ('-' :: c :: more) :: rest
  | args => args

def showsTitles (count : Nat) : Bool :=
  match g.lastOf ["q", "v"] with
  | some ['q'] => false
  | some _ => true
  | none => 1 < count

def titleOf (path : Text) (isFirst : Bool) : Text :=
  let name : Text := if path = ['-'] then "standard input" else path
  (if isFirst then [] else ['\n']) ++ "==> " ++ name ++ " <==\n"

def headExtent : Proc Extent := do
  match g.lastOf ["n", "c"] with
  | none => return {}
  | some key =>
    let ofLines := key = ['n']
    let value := (g.last? key).getD []
    let fromOtherSide := value.head? = some '-'
    match sized? (if fromOtherSide then value.drop 1 else value) with
    | some n => return ⟨ofLines, fromOtherSide, n⟩
    | none =>
      fail l ("invalid number of " ++ (if ofLines then "lines" else "bytes").toList ++ ": " ++ cited value)

def firstLines (fd : Nat) (stop : Char) : Nat → Nat → Proc (Except Fault Unit)
  | 0, _ => return .ok ()
  | _, 0 => return .ok ()
  | fuel + 1, count => do
    match ← Proc.read fd 8192 with
    | .error f => return .error f
    | .ok [] => return .ok ()
    | .ok t =>
      let lines := chunks stop t
      let whole := (lines.filter (·.getLast? = some stop)).length
      if whole < count then
        emit l t
        firstLines fd stop fuel (count - whole)
      else do
        let part := (lines.take count).flatten
        let _ ← Proc.call fun pid => do
          let at_ ← Sys.offset pid fd
          Sys.seek pid fd (at_ - (t.length - part.length))
        emit l part
        return .ok ()

def firstBytes (fd : Nat) : Nat → Nat → Proc (Except Fault Unit)
  | 0, _ => return .ok ()
  | _, 0 => return .ok ()
  | fuel + 1, count => do
    match ← Proc.read fd (min count 8192) with
    | .error f => return .error f
    | .ok [] => return .ok ()
    | .ok t =>
      emit l t
      firstBytes fd fuel (count - t.length)

def allBut (stop : Char) (x : Extent) (t : Text) : Text :=
  if x.ofLines then
    let lines := chunks stop t
    (lines.take (lines.length - x.count)).flatten
  else t.take (t.length - x.count)

def headOf (fd : Nat) (stop : Char) (x : Extent) : Proc (Except Fault Unit) := do
  if x.fromOtherSide then
    match ← Proc.readAll fd with
    | .ok t =>
      emit l (allBut stop x t)
      return .ok ()
    | .error f => return .error f
  else if x.ofLines then firstLines l fd stop loopLimit x.count
  else firstBytes l fd loopLimit x.count

/-- Shows a part of every input, under a title if there are several. -/
def showParts (part : Nat → Proc (Except Fault Unit)) : Proc Unit := do
  let titles := showsTitles g g.inputs.length
  let mut ok := true
  let mut isFirst := true
  for path in g.inputs do
    match ← openOperand path with
    | .error f =>
      say l ("cannot open " ++ quoted path ++ " for reading: " ++ f.message)
      ok := false
    | .ok fd =>
      if titles then emit l (titleOf path isFirst)
      isFirst := false
      if let .error f ← part fd then
        say l ("error reading " ++ quoted (if path = ['-'] then "standard input" else path) ++ ": " ++ f.message)
        ok := false
      if path ≠ ['-'] then closeFile fd
  done ok

def head : Proc Unit := do
  let g ← options { l with args := legacyNumber l.args }
    (.of "c:n:qvz" "bytes:=c lines:=n quiet=q silent=q verbose=v zero-terminated=z")
  let x ← headExtent l g
  showParts l g fun fd => headOf l fd g.stop x

def tailOf (stop : Char) (x : Extent) (t : Text) : Text :=
  if x.ofLines then
    let lines := chunks stop t
    (if x.fromOtherSide then lines.drop (x.count - 1) else lines.drop (lines.length - x.count)).flatten
  else if x.fromOtherSide then t.drop (x.count - 1)
  else t.drop (t.length - x.count)

def legacyTail : List Text → List Text
  | ('+' :: c :: more) :: rest =>
    if c.isDigit then
      let digits := (c :: more).takeWhile Char.isDigit
      let letters := (c :: more).drop digits.length
      (if 'c' ∈ letters then "-c+" ++ digits else "-n+" ++ digits) :: rest
    else ('+' :: c :: more) :: rest
  | args => legacyNumber args

def tailExtent : Proc Extent := do
  match g.lastOf ["n", "c"] with
  | none => return {}
  | some key =>
    let ofLines := key = ['n']
    let value := (g.last? key).getD []
    let sign := value.head?
    let digits := if sign = some '+' ∨ sign = some '-' then value.drop 1 else value
    match sized? digits with
    | some n => return ⟨ofLines, sign = some '+', n⟩
    | none =>
      fail l ("invalid number of " ++ (if ofLines then "lines" else "bytes").toList ++ ": " ++ cited value)

def tail : Proc Unit := do
  let g ← options { l with args := legacyTail l.args }
    (.of "c:n:qvzfFs:"
      "bytes:=c lines:=n quiet=q silent=q verbose=v zero-terminated=z follow::=f retry pid: sleep-interval:=s")
  let x ← tailExtent l g
  showParts l g fun fd => do
    match ← Proc.readAll fd with
    | .ok t =>
      emit l (tailOf g.stop x t)
      return .ok ()
    | .error f => return .error f

/-! Counting. -/

structure Counts where
  lines : Nat := 0
  words : Nat := 0
  bytes : Nat := 0
  longest : Nat := 0

/-- Where counting stands: the counts, whether a word goes on, and the width of the line so far. -/
structure CountState where
  counts : Counts := {}
  inWord : Bool := false
  width : Nat := 0

def isSpaceChar (c : Char) : Bool := c == ' ' || ('\t' ≤ c && c ≤ '\r')

def countChar (s : CountState) (c : Char) : CountState :=
  let k := { s.counts with bytes := s.counts.bytes + 1 }
  if c = '\n' then ⟨{ k with lines := k.lines + 1, longest := max k.longest s.width }, false, 0⟩
  else if c = '\r' ∨ c = '\x0c' then ⟨{ k with longest := max k.longest s.width }, false, 0⟩
  else if c = '\t' then ⟨k, false, s.width + 8 - s.width % 8⟩
  else if c = ' ' then ⟨k, false, s.width + 1⟩
  else if c = '\x0b' then ⟨k, false, s.width⟩
  else if Shell.isPrintable c then
    ⟨if s.inWord then k else { k with words := k.words + 1 }, true, s.width + 1⟩
  else ⟨k, s.inWord, s.width⟩

def countText (t : Text) : Counts :=
  let s := t.foldl countChar {}
  { s.counts with longest := max s.counts.longest s.width }

def Counts.add (a b : Counts) : Counts :=
  ⟨a.lines + b.lines, a.words + b.words, a.bytes + b.bytes, max a.longest b.longest⟩

def Counts.chosen (k : Counts) : List Nat :=
  let keys : List (Text × Nat) :=
    [(['l'], k.lines), (['w'], k.words), (['m'], k.bytes), (['c'], k.bytes), (['L'], k.longest)]
  if keys.any fun (key, _) => g.has key then (keys.filter fun (key, _) => g.has key).map (·.2)
  else [k.lines, k.words, k.bytes]

def countWidth (paths : List Text) : Proc Nat := do
  let mut least := 1
  let mut total := 0
  for path in paths do
    let status ← Proc.call fun pid =>
      if path = ['-'] then Sys.descriptorStatus pid 0 else Sys.status pid true path
    match status with
    | .ok st => if st.kind = .regular then total := total + st.size else least := 7
    | .error _ => pure ()
  return max least (Text.ofNat total).length

def wc : Proc Unit := do
  let g ← options l (.of "clmwL" "bytes=c chars=m lines=l words=w max-line-length=L total:")
  let paths := g.inputs
  let isSingle := paths.length = 1 ∧ (Counts.chosen g {}).length = 1
  let total := (g.last? "total").getD "auto"
  let width ← if isSingle ∨ total = "only" then pure 1 else countWidth paths
  let line (k : Counts) (name : Text) : Text :=
    [' '].intercalate ((k.chosen g).map fun n => padLeft width (Text.ofNat n)) ++
      (if name = [] then [] else ' ' :: name) ++ ['\n']
  let mut ok := true
  let mut sum : Counts := {}
  for path in paths do
    match ← openOperand path with
    | .error f =>
      say l (refused path f)
      ok := false
    | .ok fd =>
      let r ← Proc.readAll fd
      match r with
      | .error f =>
        say l (shown (if path = ['-'] then "standard input" else path) ++ ": " ++ f.message)
        ok := false
      | .ok _ => pure ()
      let k := countText (r.toOption.getD [])
      sum := sum.add k
      if total ≠ "only" then emit l (line k (if g.operands = [] then [] else path))
      if path ≠ ['-'] then closeFile fd
  if total = "only" then emit l (line sum [])
  else if total = "always" ∨ (total = "auto" ∧ 1 < paths.length) then emit l (line sum "total")
  done ok

/-! Turning around, numbering and folding. -/

def eachFile (paths : List Text) (refusal : Text → Fault → Text) (f : Text → Text) : Proc Bool := do
  let mut ok := true
  for path in paths do
    match ← readOperand path with
    | .ok t => emit l (f t)
    | .error e =>
      say l (refusal path e)
      ok := false
  return ok

def rev : Proc Unit := do
  let g ← options l (.of "V" "version=V zero=0")
  let turn (line : Text) : Text :=
    if line.getLast? = some '\n' then line.dropLast.reverse ++ ['\n'] else line.reverse
  let ok ← eachFile l g.inputs (fun path f => "cannot open " ++ path ++ ": " ++ f.message) fun t =>
    (chunks '\n' t).flatMap turn
  done ok

def partsBy (mark : Text) (isBefore : Bool) : Nat → Text → List Text
  | 0, t => [t]
  | fuel + 1, t =>
    if mark = [] then [t]
    else
      match Text.cut mark t with
      | none => if t = [] then [] else [t]
      | some (a, b) =>
        if !isBefore then (a ++ mark) :: partsBy mark isBefore fuel b
        else
          match partsBy mark isBefore fuel b with
          | p :: ps => a :: (mark ++ p) :: ps
          | [] => [a, mark]

def tac : Proc Unit := do
  let g ← options l (.of "brs:" "before=b regex=r separator:=s")
  let ok ← eachFile l g.inputs (fun path f =>
      if f = .isDirectory then shown path ++ ": read error: Invalid argument"
      else "failed to open " ++ quoted path ++ " for reading: " ++ f.message) fun t =>
    (partsBy ((g.last? "s").getD ['\n']) (g.has "b") (t.length + 1) t).reverse.flatten
  done ok

def numbersLine (style : Text) (line : Text) : Bool :=
  match style with
  | ['a'] => true
  | ['n'] => false
  | 'p' :: expression =>
    match Shell.Regex.ofText { extended := false } expression with
    | .ok r => (r.regex.search { text := line.toArray } 0).isSome
    | .error _ => false
  | _ => line ≠ []

def nl : Proc Unit := do
  let g ← options l (.of "b:d:f:h:i:l:n:ps:v:w:"
    "body-numbering:=b line-increment:=i number-format:=n number-separator:=s starting-line-number:=v number-width:=w")
  let value (key default : Text) : Text := (g.last? key).getD default
  let style := value "b" ['t']
  let step := (natural? (value "i" ['1'])).getD 1
  let start := (natural? (value "v" ['1'])).getD 1
  let width := (natural? (value "w" ['6'])).getD 6
  let separator := value "s" ['\t']
  let format := value "n" "rn"
  let number (n : Nat) : Text :=
    if format = "ln" then padRight width (Text.ofNat n)
    else if format = "rz" then padded width n
    else padLeft width (Text.ofNat n)
  let mut ok := true
  let mut next := start
  for path in g.inputs do
    match ← readOperand path with
    | .error f =>
      say l (refused path f)
      ok := false
    | .ok t =>
      let (parts, n) := (linesOf '\n' t).foldl (fun (got, n) line =>
        if numbersLine style line then ((number n ++ separator ++ line ++ ['\n']) :: got, n + step)
        else ((List.replicate (width + separator.length) ' ' ++ line ++ ['\n']) :: got, n)) ([], next)
      next := n
      emit l parts.reverse.flatten
  done ok

def nextColumn (countsBytes : Bool) (column : Nat) (c : Char) : Nat :=
  if countsBytes then column + 1
  else
    match c with
    | '\x08' => column - 1
    | '\r' => 0
    | '\t' => column + 8 - column % 8
    | _ => column + 1

/-- A line cut into parts of a width, at blanks if `atBlanks`. `current` holds the part so far, the last
character first. -/
def foldLine (width : Nat) (atBlanks countsBytes : Bool) : Nat → Text → Text → List Text
  | 0, current, t => [current.reverse ++ t]
  | _, current, [] => [current.reverse]
  | fuel + 1, current, c :: rest =>
    let column := current.foldr (fun c n => nextColumn countsBytes n c) 0
    if nextColumn countsBytes column c ≤ width then foldLine width atBlanks countsBytes fuel (c :: current) rest
    else
      let behind := current.takeWhile fun c => c != ' ' && c != '\t'
      let upToBlank := current.drop behind.length
      if atBlanks ∧ upToBlank ≠ [] then
        upToBlank.reverse :: foldLine width atBlanks countsBytes fuel behind (c :: rest)
      else if current = [] then foldLine width atBlanks countsBytes fuel [c] rest
      else current.reverse :: foldLine width atBlanks countsBytes fuel [] (c :: rest)

def fold : Proc Unit := do
  let g ← options l (.of "bsw:0::1::2::3::4::5::6::7::8::9::" "bytes=b spaces=s width:=w")
  let widths : List Text := g.options.filterMap fun (key, value) =>
    if key = ['w'] then some value else if key.all Char.isDigit then some (key ++ value) else none
  let text := (widths.getLast?).getD "80"
  match natural? text with
  | none | some 0 => fail l ("invalid number of columns: " ++ cited text)
  | some width =>
    let one (line : Text) : Text :=
      let hasEnd := line.getLast? = some '\n'
      let body := if hasEnd then line.dropLast else line
      ['\n'].intercalate (foldLine width (g.has "s") (g.has "b") (3 * body.length + 3) [] body) ++ (if hasEnd then ['\n'] else [])
    let ok ← eachFile l g.inputs refused fun t => (chunks '\n' t).flatMap one
    done ok

/-! Writing to several files. -/

def pumpTo (fds : List Nat) : Nat → Proc Unit
  | 0 => return ()
  | fuel + 1 => do
    match ← Proc.read 0 65536 with
    | .ok [] | .error _ => return ()
    | .ok t =>
      for fd in fds do
        let _ ← Proc.write fd t
      pumpTo fds fuel

def tee : Proc Unit := do
  let g ← options l (.of "aip" "append=a ignore-interrupts=i output-error::=p")
  let access : Access := if g.has "a" then .forAppending else .forWriting
  let mut ok := true
  let mut fds := [1]
  for path in g.operands do
    match ← openOutput path access with
    | .ok fd => fds := fds ++ [fd]
    | .error f =>
      say l (refused path f)
      ok := false
  pumpTo fds loopLimit
  done ok

end Runbook.Program
