import Runbook.Shell.Printer

/-!
Shell text on its way to commands: the text that is still to be read, tokens, and what is said when
text cannot be read.
-/
namespace Runbook.Shell

/-- What decides how text is read: whether patterns may hold lists, and the words that stand for other
text. -/
structure Dialect where
  patternLists : Bool := false
  aliases : List (Text × Text) := []

/-- Why text cannot be read: what is said, each with its line, and the status. A discarding error ends
the line only; `isEnd` tells that the text ended where it should go on. -/
structure SyntaxError where
  reports : List (Nat × Text)
  status : Nat := 2
  discards : Bool := false
  isEnd : Bool := false

inductive Token where
  | word (t : Text)
  | sign (t : Text)
  | number (n : Nat)
  | named (name : Text)
  | newline
  | stop
deriving DecidableEq

structure Awaited where
  id : Nat
  delimiter : Text
  strips : Bool
  isLiteral : Bool

/-- The text that is still to be read, the line it stands on, and all lines. `tokenLine` is the line of the
last token's end, `nameLine` and `bodyLine` are those of the last function's name and body; `limit` is more
than any reading takes. -/
structure Input where
  rest : Text
  line : Nat := 1
  first : Nat := 1
  lines : Array Text := #[]
  look : Option Token := none
  tokenLine : Nat := 1
  nameLine : Nat := 0
  bodyLine : Nat := 0
  awaited : List Awaited := []
  bodies : Bodies := []
  nextId : Nat := 0
  warnings : List (Nat × Text) := []
  limit : Nat := 0

def readable (t : Text) : Text := t.filter (· ≠ '\x00')

def Input.ofText (line : Nat) (t : Text) : Input :=
  let t := readable t
  let t := if t = [] ∨ t.getLast? = some '\n' then t else t ++ ['\n']
  { rest := t, line := line, first := line, lines := (t.splitOn '\n').toArray, tokenLine := line,
    limit := t.length + 100 }

abbrev ReadM := ReaderT Dialect (ExceptT SyntaxError (StateM Input))

namespace ReadM

def isBlankChar (c : Char) : Bool := c == ' ' || c == '\t'

def isMeta (c : Char) : Bool :=
  isBlankChar c || c == '\n' || c == ';' || c == '&' || c == '|' || c == '<' || c == '>' || c == '(' ||
    c == ')'

def lost : Char := '\x00'

def dropJoins : Text → Nat → Text × Nat
  | '\\' :: '\n' :: rest, line => dropJoins rest (line + 1)
  | t, line => (t, line)

def join : ReadM Unit :=
  modify fun i =>
    let (rest, line) := dropJoins i.rest i.line
    { i with rest := rest, line := line }

def peekRaw : ReadM (Option Char) := do return (← get).rest.head?

def peekChar : ReadM (Option Char) := do
  join
  peekRaw

def peekSecond : ReadM (Option Char) := do
  match (← get).rest with
  | _ :: rest => return (dropJoins rest 0).1.head?
  | [] => return none

def takeRaw : ReadM (Option Char) := do
  let i ← get
  match i.rest with
  | [] => return none
  | c :: rest =>
    set { i with rest := rest, line := if c = '\n' then i.line + 1 else i.line }
    return some c

def takeChar : ReadM (Option Char) := do
  join
  takeRaw

def skip : ReadM Unit := do
  let _ ← takeChar

def lineText (n : Nat) : ReadM Text := do
  let i ← get
  return i.lines.getD (n - i.first) []

def currentLine : ReadM Nat := do return (← get).line

/-! Errors. -/

def fail {α : Type} (reports : List (Nat × Text)) : ReadM α := throw { reports := reports }

def quoted (t : Text) : Text := '\x60' :: t ++ ['\'']

def unclosed {α : Type} (line : Nat) (closing : Text) : ReadM α :=
  fail [(line, "unexpected EOF while looking for matching " ++ quoted closing)]

def Token.text : Token → Text
  | .word t | .sign t => t
  | .number n => Text.ofNat n
  | .named name => '{' :: name ++ ['}']
  | .newline => "newline"
  | .stop => []

def unexpected {α : Type} (t : Token) : ReadM α := do
  let line := (← get).tokenLine
  match t with
  | .stop => throw { reports := [(line, "syntax error: unexpected end of file")], isEnd := true }
  | _ =>
    fail [(line, "syntax error near unexpected token " ++ quoted (Token.text t)),
      (line, quoted (← lineText line))]

def wordBefore (line : Text) (place : Nat) : Text :=
  let blank (c : Char) : Bool := isBlankChar c || c == '\n'
  let before := ((line.take (place + 1)).reverse).dropWhile blank
  let word := before.takeWhile fun c => !(blank c || c == ';' || c == '|' || c == '&')
  if word = [] then before.take 1 else word.reverse

def nearHere {α : Type} (reports : List (Nat × Text)) : ReadM α := do
  let i ← get
  let line := i.tokenLine
  let text ← lineText line
  let left := if line = i.line then (i.rest.takeWhile (· ≠ '\n')).length else 0
  if i.rest = [] ∧ i.look = some .stop then
    fail (reports ++ [(line, ("syntax error: unexpected end of file" : Text))])
  else
    let place := text.length - left
    fail (reports ++ [(line, "syntax error near " ++ quoted (wordBefore text place)), (line, quoted text)])

/-! Documents. -/

def removeQuotes : Text → Text
  | [] => []
  | '\\' :: c :: rest => c :: removeQuotes rest
  | c :: rest => if c = '\'' ∨ c = '"' then removeQuotes rest else c :: removeQuotes rest

/-- One line of the text, without its end; ends that a backslash takes away do not count if `joins`. -/
def takeLine (joins : Bool) : Text → Option (Text × Text × Nat)
  | [] => none
  | '\n' :: rest => some ([], rest, 1)
  | '\\' :: '\n' :: rest =>
    if joins then (takeLine joins rest).map fun (l, r, n) => (l, r, n + 1)
    else some (['\\'], rest, 1)
  | '\\' :: c :: rest => (takeLine joins rest).map fun (l, r, n) => ('\\' :: c :: l, r, n)
  | [c] => some ([c], [], 0)
  | c :: rest =>
    match takeLine joins rest with
    | some (l, r, n) => some (c :: l, r, n)
    | none => some ([c], [], 0)

/-- Takes lines up to the delimiter: the lines, what follows, the lines counted, and whether the
delimiter was found. -/
def documentLines (a : Awaited) : Nat → Text → List Text × Text × Nat × Bool
  | 0, rest => ([], rest, 0, false)
  | fuel + 1, rest =>
    match takeLine (!a.isLiteral) rest with
    | none => ([], rest, 0, false)
    | some (l, after, n) =>
      let l := if a.strips then l.dropWhile (· == '\t') else l
      if l = a.delimiter then ([], after, n, true)
      else
        let (ls, rest, m, found) := documentLines a fuel after
        (l :: ls, rest, n + m, found)

def takeDocument (a : Awaited) : ReadM Unit :=
  modify fun i =>
    let (ls, rest, n, found) := documentLines a (i.rest.length + 1) i.rest
    let warning :=
      (i.line + n - 1, "warning: here-document at line " ++ Text.ofNat (i.line - 1) ++
        " delimited by end-of-file (wanted " ++ quoted a.delimiter ++ ")")
    { i with
      rest := rest
      line := i.line + n
      bodies := (a.id, ls.flatMap (· ++ ['\n'])) :: i.bodies
      warnings := if found then i.warnings else i.warnings ++ [warning] }

def takeDocuments : ReadM Unit := do
  let awaited := (← get).awaited
  modify fun i => { i with awaited := [] }
  for a in awaited do
    takeDocument a

end ReadM

end Runbook.Shell
