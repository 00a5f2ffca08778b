import Runbook.Program.Lines

/-!
The program that finds lines which hold what is looked for.
-/
namespace Runbook.Program
open Kernel
open Shell (Regex)

variable (l : Launch)

/-! What is looked for. -/

/-- Expressions, one of which has to be found, and whether it has to be a whole word or line. -/
structure Query where
  expressions : List Regex
  foldsCase : Bool := false
  wholeWords : Bool := false
  wholeLines : Bool := false

namespace Query

def endAt? (q : Query) (s : Regex.Subject) (i : Nat) : Option Nat :=
  let fits (j : Nat) : Bool :=
    (!q.wholeLines || (i == 0 && j == s.text.size)) &&
      (!q.wholeWords || (!Regex.wordBefore s i && !Regex.wordAt s j))
  (q.expressions.filterMap fun e => (e.endsAt s i).find? fits).max?

def findFrom (q : Query) (s : Regex.Subject) : Nat → Nat → Option (Nat × Nat)
  | 0, _ => none
  | fuel + 1, i =>
    match q.endAt? s i with
    | some j => some (i, j)
    | none => if q.wholeLines then none else findFrom q s fuel (i + 1)

def find? (q : Query) (s : Regex.Subject) (i : Nat) : Option (Nat × Nat) := q.findFrom s (s.text.size + 1 - i) i

def subject (q : Query) (line : Text) : Regex.Subject := { text := line.toArray, foldsCase := q.foldsCase }

def matchesFrom (q : Query) (s : Regex.Subject) : Nat → Nat → List (Nat × Nat)
  | 0, _ => []
  | fuel + 1, i =>
    match q.find? s i with
    | none => []
    | some (a, b) => if a < b then (a, b) :: matchesFrom q s fuel b else matchesFrom q s fuel (b + 1)

def all (q : Query) (line : Text) : List (Nat × Nat) := q.matchesFrom (q.subject line) (line.length + 1) 0

def holds (q : Query) (line : Text) : Bool := (q.find? (q.subject line) 0).isSome

end Query

def literally : Text → Regex
  | [] => .empty
  | [c] => .exactly c
  | c :: rest => .sequence (.exactly c) (literally rest)

inductive QueryKind where
  | basic
  | extended
  | fixed
deriving DecidableEq

def QueryKind.grammar (k : QueryKind) : Regex.Grammar :=
  { extended := k = .extended, looseBraces := true, checksClasses := true }

def readExpressions (k : QueryKind) : List Text → Except Text (List Regex × List Text)
  | [] => .ok ([], [])
  | t :: rest => do
    let (e, warnings) ←
      match k with
      | .fixed => pure (literally t, [])
      | _ =>
        match Regex.ofText k.grammar t with
        | .ok c => pure (c.regex, c.warnings)
        | .error e => throw e.message
    let (es, more) ← readExpressions k rest
    return (e :: es, warnings ++ more)

/-! What is shown. -/

inductive Shows where
  | lines
  | count
  | names
  | otherNames
  | nothing
deriving DecidableEq

structure SearchForm where
  query : Query
  inverted : Bool := false
  shows : Shows := .lines
  onlyMatches : Bool := false
  most : Option Nat := none
  before : Option Nat := none
  after : Option Nat := none
  withName : Bool := false
  withNumber : Bool := false
  withOffset : Bool := false
  withTab : Bool := false
  nameEnd : Option Char := none
  separator : Option Text := some ['-', '-']
  isText : Bool := false
  skipsBinary : Bool := false
  colored : Bool := false
  lineEnd : Char := '\n'

def colored (code t : Text) : Text := "\x1b[" ++ code ++ "m\x1b[K" ++ t ++ "\x1b[m\x1b[K"

structure NumberedLine where
  number : Nat
  offset : Nat
  text : Text

structure Search where
  number : Nat := 0
  offset : Nat := 0
  found : Nat := 0
  held : List NumberedLine := []
  afterLeft : Nat := 0
  lastShown : Option Nat := none
  isBinary : Bool := false
  isOver : Bool := false

namespace SearchForm

def head (f : SearchForm) (name : Text) (number offset : Nat) (sign : Char) : Text :=
  let paint (code t : Text) : Text := if f.colored then Program.colored code t else t
  let sep := paint "36" [sign]
  let nameText : Text :=
    if f.withName then paint "35" name ++ (match f.nameEnd with | some c => [c] | none => sep) else []
  let numberText : Text := if f.withNumber then paint "32" (Text.ofNat number) ++ sep else []
  let offsetText : Text := if f.withOffset then paint "32" (Text.ofNat offset) ++ sep else []
  let all := nameText ++ numberText ++ offsetText
  if f.withTab ∧ all ≠ [] then all ++ ['\t'] else all

def marked (t : Text) : Nat → List (Nat × Nat) → Text
  | i, [] => t.drop i
  | i, (a, b) :: rest => (t.drop i).take (a - i) ++ Program.colored "01;31" ((t.drop a).take (b - a)) ++ marked t b rest

def shownLine (f : SearchForm) (name : Text) (l : NumberedLine) (isFound : Bool) : Text :=
  let sign := if isFound then ':' else '-'
  if f.onlyMatches then
    if f.inverted ∨ !isFound then []
    else
      (f.query.all l.text).flatMap fun (a, b) =>
        let part := (l.text.drop a).take (b - a)
        f.head name l.number (l.offset + a) sign ++ (if f.colored then Program.colored "01;31" part else part) ++ [f.lineEnd]
  else
    let body := if f.colored ∧ isFound ∧ !f.inverted then marked l.text 0 (f.query.all l.text) else l.text
    f.head name l.number l.offset sign ++ body ++ [f.lineEnd]

def hasContext (f : SearchForm) : Bool := f.before.isSome || f.after.isSome

/-- Lines that are left out before a line are marked, if lines around matches are shown. `used` tells that
something was shown before. -/
def gap (f : SearchForm) (used : Bool) (s : Search) (number : Nat) : Text :=
  match f.separator with
  | some t =>
    if f.hasContext && used && s.lastShown ≠ some (number - 1) then
      (if f.colored then Program.colored "36" t else t) ++ ['\n']
    else []
  | none => []

def step (f : SearchForm) (name : Text) (used : Bool) (s : Search) (line : Text) : Text × Search :=
  let l : NumberedLine := ⟨s.number + 1, s.offset, line⟩
  let s := { s with number := s.number + 1, offset := s.offset + line.length + 1 }
  let isLast := f.most.any (· ≤ s.found)
  let isFound := !isLast && (f.query.holds line != f.inverted)
  if isFound then
    let s := { s with found := s.found + 1 }
    match f.shows with
    | .lines =>
      if s.isBinary then ([], { s with isOver := true })
      else
        let context := s.held.reverse
        let first := (context.head?.map (·.number)).getD l.number
        let out := f.gap (used || s.lastShown.isSome) s first ++
          context.flatMap (f.shownLine name · false) ++ f.shownLine name l true
        let s := { s with held := [], afterLeft := f.after.getD 0, lastShown := some l.number }
        (out, { s with isOver := f.most = some s.found && s.afterLeft = 0 })
    | .count => ([], { s with isOver := f.most = some s.found })
    | _ => ([], { s with isOver := true })
  else if 0 < s.afterLeft then
    let s := { s with afterLeft := s.afterLeft - 1, lastShown := some l.number }
    (if s.isBinary then [] else f.shownLine name l false, { s with isOver := isLast && s.afterLeft = 0 })
  else ([], { s with held := (l :: s.held).take (f.before.getD 0), isOver := isLast })

def steps (f : SearchForm) (name : Text) (used : Bool) : List Text → Search → List Text → List Text × Search
  | [], s, out => (out, s)
  | line :: rest, s, out =>
    if s.isOver then (out, s)
    else
      let (t, s) := f.step name used s line
      steps f name used rest s (t :: out)

end SearchForm

/-- Searches what comes from a descriptor. `held` is the start of a line that is not yet complete. -/
def searchFrom (f : SearchForm) (name : Text) (used : Bool) (fd : Nat) :
    Nat → Text → Search → Proc (Except Fault Search)
  | 0, _, s => return .ok s
  | fuel + 1, held, s => do
    match ← Proc.read fd 98304 with
    | .error e => return .error e
    | .ok got => do
      let text := held ++ got
      let isBinary := s.isBinary || (!f.isText && f.lineEnd = '\n' && '\x00' ∈ got)
      let s := { s with isBinary := isBinary, isOver := isBinary && f.skipsBinary }
      let parts := chunks f.lineEnd text
      let isEnd := got = []
      let (whole, rest) : List Text × Text :=
        match parts.getLast? with
        | some last => if isEnd ∨ last.getLast? = some f.lineEnd then (parts, []) else (parts.dropLast, last)
        | none => ([], [])
      let lines := whole.map fun t => if t.getLast? = some f.lineEnd then t.dropLast else t
      let (out, s) := f.steps name used lines s []
      emit l out.reverse.flatten 2
      if isEnd ∨ s.isOver then return .ok s
      else searchFrom f name used fd fuel rest s

/-! Where it is looked for. -/

structure Places where
  recursive : Bool := false
  followsLinks : Bool := false
  skipsDirectories : Bool := false
  included : List Text := []
  excluded : List Text := []
  excludedDirectories : List Text := []
  quiet : Bool := false

/-- What a search has come to: whether something was shown, was found, and whether something failed. -/
structure SearchOutcome where
  used : Bool := false
  found : Bool := false
  failed : Bool := false
  isOver : Bool := false

def globMatches (pattern name : Text) : Bool := (Shell.Pattern.read false (pattern.map fun c => ⟨c, false⟩)).isMatch {} name

def isMeant (patterns : List Text) (path : Text) : Bool :=
  let name := (path.reverse.takeWhile (· ≠ '/')).reverse
  patterns.any fun p => globMatches p path || globMatches p name

def searchOpen (f : SearchForm) (p : Places) (name : Text) (fd : Nat) (o : SearchOutcome) :
    Proc SearchOutcome := do
  match ← searchFrom l f name o.used fd loopLimit [] {} with
  | .error e =>
    if !p.quiet then say l (name ++ ": " ++ e.message)
    return { o with failed := true }
  | .ok s =>
    let shownName : Text := if f.colored then colored "35" name else name
    let nameEnd : Text := [f.nameEnd.getD '\n']
    let sep : Text := if f.colored then colored "36" [':'] else [':']
    match f.shows with
    | .count =>
      if !(s.isBinary && f.skipsBinary) then
        let head : Text :=
          if f.withName then shownName ++ (match f.nameEnd with | some c => [c] | none => sep) else []
        emit l (head ++ Text.ofNat s.found ++ ['\n']) 2
    | .names => if 0 < s.found then emit l (shownName ++ nameEnd) 2
    | .otherNames => if s.found = 0 then emit l (shownName ++ nameEnd) 2
    | .lines =>
      if s.isBinary ∧ 0 < s.found ∧ !f.skipsBinary then say l (name ++ ": binary file matches")
    | .nothing => pure ()
    let found := if f.shows = .otherNames then s.found = 0 else 0 < s.found
    return { o with
      used := o.used || s.lastShown.isSome
      found := o.found || found
      isOver := f.shows = .nothing && 0 < s.found }

def searchPath (f : SearchForm) (p : Places) : Nat → Bool → Text → SearchOutcome → Proc SearchOutcome
  | 0, _, _, o => return o
  | depth + 1, isGiven, path, o => do
    if o.isOver then return o
    let complain (e : Fault) : Proc SearchOutcome := do
      if !p.quiet then say l (path ++ ": " ++ e.message)
      return { o with failed := true }
    match ← statusAt (isGiven || p.followsLinks) path with
    | .error e => complain e
    | .ok st =>
      let baseName := (path.reverse.takeWhile (· ≠ '/')).reverse
      if st.kind = .directory then
        if p.recursive then
          if !isGiven ∧ isMeant p.excludedDirectories baseName then return o
          let entries := ((← Proc.call fun pid => Sys.listing pid path).toOption.getD []).map (·.1)
          let names := entries.mergeSort Text.le
          let start : Text := if path.getLast? = some '/' then path else path ++ ['/']
          names.foldlM (fun o name => searchPath f p depth false (start ++ name) o) o
        else if p.skipsDirectories then return o
        else complain .isDirectory
      else if !isGiven ∧ st.kind ≠ .regular ∧ !p.followsLinks then return o
      else if (p.included ≠ [] ∧ !isMeant p.included path) ∨ isMeant p.excluded path then return o
      else
        match ← openInput path with
        | .error e => complain e
        | .ok fd =>
          let o ← searchOpen l f p path fd o
          closeFile fd
          return o

/-! The command line. -/

def grepForm : OptionForm :=
  .of "0123456789abcEFGPhHiyIlLnoqrRsTuUvVwxzZe:f:m:A:B:C:d:D:"
    ("after-context:=A before-context:=B context:=C max-count:=m regexp:=e file:=f extended-regexp=E fixed-strings=F " ++
      "basic-regexp=G perl-regexp=P ignore-case=i no-ignore-case invert-match=v word-regexp=w line-regexp=x count=c " ++
      "color::=color colour::=color files-without-match=L files-with-matches=l only-matching=o quiet=q silent=q " ++
      "no-messages=s byte-offset=b with-filename=H no-filename=h label: line-number=n initial-tab=T null=Z text=a " ++
      "binary-files: directories:=d devices:=D exclude: exclude-dir: include: recursive=r dereference-recursive=R " ++
      "line-buffered null-data=z binary=U version=V help group-separator: no-group-separator")

def grepMisuse {α : Type} (t : Text) : Proc α := do
  let lead : Text := if t = [] then [] else l.name ++ ": " ++ t ++ ['\n']
  let _ ← Proc.write 2 (lead ++ "Usage: grep [OPTION]... PATTERNS [FILE]...\n" ++ hint l)
  Proc.exit 2

def contextLength (g : Given) (key : Text) : Proc (Option Nat) := do
  match g.last? key with
  | none => return none
  | some t =>
    match natural? t with
    | some n => return some n
    | none => fail l (t ++ ": invalid context length argument") 2

def patternsOf : List (Text × Text) → Proc (List Text)
  | [] => return []
  | (key, value) :: rest => do
    let own ←
      if key = ['e'] then pure (value.splitOn '\n')
      else if key = ['f'] then
        match ← readOperand value with
        | .ok t => pure (linesOf '\n' t)
        | .error e => fail l (value ++ ": " ++ e.message) 2
      else pure []
    let others ← patternsOf rest
    return own ++ others

def grepWith : Proc Unit := do
  let g ←
    match parseFrom grepForm false l.args {} with
    | .ok g => pure g
    | .error e => grepMisuse l e
  let has (c : Char) : Bool := g.has [c]
  let kinds := (['E', 'F', 'G', 'P'].filter has)
  if (kinds.contains 'F' && 1 < kinds.length) || (kinds.contains 'P' && 1 < kinds.length) then
    fail l "conflicting matchers specified" 2
  let kind : QueryKind :=
    match g.lastOf ["E", "F", "G"] with
    | some ['E'] => .extended
    | some ['F'] => .fixed
    | _ => .basic
  let digits := (g.options.filterMap fun (k, _) => match k with | [c] => if c.isDigit then some c else none | _ => none)
  let plain := natural? digits
  let both ← contextLength l g ['C']
  let after ← contextLength l g ['A']
  let before ← contextLength l g ['B']
  let most ←
    match g.last? "m" with
    | none => pure none
    | some t =>
      match t, natural? t with
      | _, some n => pure (some n)
      | '-' :: _, none => pure none
      | _, none => fail l "invalid max count" 2
  let given ← patternsOf l g.options
  let hasPatterns := has 'e' || has 'f'
  if !hasPatterns && g.operands = [] then grepMisuse l []
  let patterns := if hasPatterns then given else ((g.operands.headD []).splitOn '\n')
  let operands := if hasPatterns then g.operands else g.operands.drop 1
  let (expressions, warnings) ←
    match readExpressions kind patterns with
    | .ok r => pure r
    | .error e => fail l e 2
  for w in warnings do
    say l ("warning: " ++ w)
  let recursive := has 'r' || has 'R' || g.last? "d" = some "recurse"
  let colorMode := (g.last? "color").map String.ofList
  let query : Query :=
    { expressions := expressions
      foldsCase := (has 'i' || has 'y') && g.lastOf [['i'], ['y'], "no-ignore-case"] ≠ some "no-ignore-case"
      wholeWords := has 'w' && !has 'x'
      wholeLines := has 'x' }
  let form : SearchForm :=
    { query := query
      inverted := has 'v'
      shows :=
        if has 'q' then .nothing
        else if has 'l' ∨ has 'L' then (if g.lastOf ["l", "L"] = some ['l'] then .names else .otherNames)
        else if has 'c' then .count
        else .lines
      onlyMatches := has 'o'
      most := most
      before := (before.or both).or plain
      after := (after.or both).or plain
      withName :=
        match g.lastOf ["h", "H"] with
        | some ['H'] => true
        | some _ => false
        | none => recursive || 1 < operands.length
      withNumber := has 'n'
      withOffset := has 'b'
      withTab := has 'T'
      nameEnd := if has 'Z' then some '\x00' else none
      separator := if g.has "no-group-separator" then none else some ((g.last? "group-separator").getD ['-', '-'])
      isText := has 'a' || g.last? "binary-files" = some "text"
      skipsBinary := has 'I' || g.last? "binary-files" = some "without-match"
      colored := colorMode = some "always" || colorMode = some "yes" || colorMode = some "force"
      lineEnd := if has 'z' then '\x00' else '\n' }
  let values (key : Text) : List Text := (g.options.filter (·.1 = key)).map (·.2)
  let places : Places :=
    { recursive := recursive
      followsLinks := has 'R'
      skipsDirectories := g.last? "d" = some "skip"
      included := values "include"
      excluded := values "exclude"
      excludedDirectories := values "exclude-dir"
      quiet := has 's' }
  if most = some 0 then Proc.exit 1
  let label := (g.last? "label").getD "(standard input)"
  let mut o : SearchOutcome := {}
  if operands = [] ∧ recursive then
    let names := ((← Proc.call fun pid => Sys.listing pid ['.']).toOption.getD []).map (·.1)
    for name in names.mergeSort Text.le do
      o ← searchPath l form places 1000 false name o
  else
    for path in (if operands = [] then [['-']] else operands) do
      if !o.isOver then
        if path = ['-'] then o ← searchOpen l form places label 0 o
        else o ← searchPath l form places 1000 true path o
  Proc.exit (if o.isOver then 0 else if o.failed then 2 else if o.found then 0 else 1)

def grep : Proc Unit := grepWith { l with name := "grep" }

def grepAs (option : Text) (l : Launch) : Proc Unit := grep { l with args := option :: l.args }

end Runbook.Program
