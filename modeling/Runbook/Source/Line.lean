import Runbook.Source.Reference
import Runbook.Text.Blank

/-!
What a single source line says, apart from where it stands.
-/
namespace Runbook

/-- What follows a keyword, trimmed. Blanks and something else have to follow it. -/
def afterKeyword (keyword line : Text) : Option Text :=
  match keyword.isPrefixOf? line with
  | some (c :: rest) =>
    if isBlank c ∧ Text.trim rest ≠ [] then some (Text.trim rest) else none
  | _ => none

def isComment (line : Text) : Bool := line.head? = some '#'

/-- The column of the first place where the keyword stands in the raw line. -/
def keywordCol (keyword raw : Text) : Nat :=
  match Text.cut keyword raw with
  | some (before, _) => Text.byteLength before + 1
  | none => 1

def indentCol (raw : Text) : Nat := Text.byteLength raw - Text.byteLength (Text.trimStart raw) + 1

def unquoteWith (quote : Char) (t : Text) : Option Text :=
  match t with
  | c :: rest => if c = quote ∧ rest.getLast? = some quote then some rest.dropLast else none
  | [] => none

def unquote (t : Text) : Text := ((unquoteWith '"' t).or (unquoteWith '\'' t)).getD t

def importParts (rest : Text) : Option (Text × Text) := do
  let (head, owner) ← rest.cutAtLast isBlank
  let beforeAs ← List.isSuffixOf? ['a', 's'] (Text.trimEnd head)
  let last ← beforeAs.getLast?
  let path := Text.trim beforeAs
  if isBlank last ∧ path ≠ [] ∧ isIdentifier owner then some (unquote path, owner) else none

/-- The name in `keyword name {`; a function may have `()` behind its name. -/
def declaredName (keyword : Text) (parens : Bool) (line : Text) : Option Text := do
  let rest ← afterKeyword keyword line
  let head ← List.isSuffixOf? ['{'] rest
  let head := Text.trimEnd head
  let name := if parens then (List.isSuffixOf? ['(', ')'] head).getD head else head
  if isIdentifier name then some name else none

/-- The rule in `if ! ensure rule; then`. -/
def conditionalRule (line : Text) : Option Text := do
  let rest ← List.isPrefixOf? "if" line
  let first ← rest.head?
  let rest ← List.isPrefixOf? ['!'] (Text.trimStart rest)
  let rest ← List.isPrefixOf? "ensure" (Text.trimStart rest)
  let second ← rest.head?
  let (rule, tail) ← (Text.trimStart rest).cutAt (· == ';')
  let rule := Text.trimEnd rule
  if isBlank first ∧ isBlank second ∧ isReference rule ∧ Text.trim tail = "then" then some rule
  else none

/-- The rule and the arguments of an `ensure`, from what follows the keyword. -/
def ensureParts (body : Text) : Text × Option Text :=
  match body.cutAt isBlank with
  | some (rule, args) => (rule, if Text.trim args = [] then none else some (Text.trim args))
  | none => (body, none)

/-- The parts before and after the first double quote that stands behind an even number of
backslashes. `before` is the text already passed, last character first. -/
def cutQuote (before : Text) : Text → Option (Text × Text)
  | [] => none
  | c :: rest =>
    if c = '"' ∧ (before.takeWhile (· == '\\')).length % 2 = 0 then some ([], rest)
    else (cutQuote (c :: before) rest).map fun (a, b) => (c :: a, b)

inductive TopLine where
  | blank
  | comment
  | importing (rest : Text)
  | declaration (exported : Bool) (text : Text)

def TopLine.of (line : Text) : TopLine :=
  if line = [] then .blank
  else if isComment line then .comment
  else
    match afterKeyword "import" line with
    | some rest => .importing rest
    | none =>
      match afterKeyword "export" line with
      | some rest => .declaration true rest
      | none => .declaration false line

inductive BodyLine where
  | blank
  | close
  | comment
  | conditional (rule : Text)
  | prompt
  | ensure (body : Text)
  | run (target : Text)
  | shell

def BodyLine.of (line : Text) : BodyLine :=
  if line = [] then .blank
  else if line = ['}'] then .close
  else if isComment line then .comment
  else
    match conditionalRule line with
    | some rule => .conditional rule
    | none =>
      if (afterKeyword "prompt" line).isSome then .prompt
      else
        match afterKeyword "ensure" line with
        | some body => .ensure body
        | none =>
          match afterKeyword "run" line with
          | some target => .run target
          | none => .shell

end Runbook
