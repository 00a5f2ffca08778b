import Runbook.Shell.Quote
import Runbook.Shell.Token

/-!
Tokens out of shell text. Words keep their quotes; only commands inside a word are read and written
anew, by the reader of commands, which is the argument `nested` of what follows.
-/
namespace Runbook.Shell
namespace Lexeme
open ReadM

/-- Where a word stands: whether it may be an assignment, also of a list, is a member of such a list or a
regular expression, and whether patterns in it may hold lists. -/
structure Place where
  assignable : Bool := false
  assignsLists : Bool := false
  inList : Bool := false
  inRegex : Bool := false
  patternLists : Bool := false

def Place.command : Place := { assignable := true, assignsLists := true }

structure Pair where
  quote : Char := ' '
  opener : Char
  closer : Char
  firstClose : Bool := false
  isBrace : Bool := false
  inDouble : Bool := false
  allowsEscapes : Bool := false

/-- How far the inside of braces has been read: the parameter, the operator, the word behind it; the
last two are words in which single quotes quote. -/
inductive Stage where
  | parameter
  | operator
  | word
  | pattern
  | replacement
deriving DecidableEq

/-- The state of the search: how many closers are missing, and the text so far, the last first. -/
structure Search where
  count : Nat := 1
  escaped : Bool := false
  afterDollar : Bool := false
  stage : Stage := .parameter
  found : Text := []

def Stage.next (s : Stage) (c : Char) (isFirst : Bool) : Stage :=
  let isOperator := c ∈ ("#%^,~:-=?+/" : Text)
  match s with
  | .parameter =>
    if (c = '%' ∨ c = '#' ∨ c = '^' ∨ c = ',') ∧ !isFirst then .pattern
    else if c = '/' ∧ !isFirst then .replacement
    else if isOperator then .operator
    else .parameter
  | .operator => if isOperator then .operator else .word
  | s => s

def isAssignmentStart (t : Text) : Bool :=
  let t := if t.getLast? = some '+' then t.dropLast else t
  match Text.cutAt (· == '[') t with
  | some (name, inside) => isIdentifier name && inside.getLast? = some ']'
  | none => isIdentifier t

def isAssignment (t : Text) : Bool :=
  let name := t.takeWhile isNameChar
  isIdentifier name &&
    match t.drop name.length with
    | '=' :: _ | '+' :: '=' :: _ => true
    | '[' :: rest =>
      let rec closes : Nat → Text → Bool
        | _, [] => false
        | depth, ']' :: after =>
          match depth, after with
          | 0, '=' :: _ | 0, '+' :: '=' :: _ => true
          | 0, _ => false
          | depth + 1, _ => closes depth after
        | depth, '[' :: after => closes (depth + 1) after
        | depth, _ :: after => closes depth after
      closes 0 rest
    | _ => false

def throwExhausted {α : Type} : ReadM α := fail [(0, "text nested too deeply")]

/-- What stands behind a dollar sign and an opening parenthesis: an expression if a second one
follows, and commands if not. -/
def parenthesized (nested expression : ReadM Text) : ReadM Text := do
  if (← peekChar) = some '(' then expression else nested

def matched (nested : ReadM Text) : Nat → Pair → Nat → Search → ReadM Text
  | 0, _, _, _ => throwExhausted
  | fuel + 1, p, start, s => do
    match ← (if p.quote ≠ '\'' && !s.escaped then takeChar else takeRaw) with
    | none => unclosed start [p.closer]
    | some c =>
      if s.escaped then
        if p.quote ≠ '\'' ∧ c = '\n' then
          matched nested fuel p start { s with escaped := false, found := s.found.drop 1 }
        else matched nested fuel p start { s with escaped := false, found := c :: s.found }
      else
        let isNested := (s.afterDollar && p.opener = '{' && c = '{') || (!p.firstClose && c = p.opener)
        let count := if c = p.closer then s.count - 1 else if isNested then s.count + 1 else s.count
        let found := c :: s.found
        if count = 0 then return found.reverse
        else if p.opener = '\'' then
          matched nested fuel p start { s with count := count, found := found, escaped := p.allowsEscapes && c = '\\' }
        else
          let stage := if p.isBrace then s.stage.next c (s.found = []) else s.stage
          let inner := p.quote = '"' || p.inDouble
          let t : Search :=
            { count := count, found := found, stage := stage, escaped := c = '\\',
              afterDollar := c = '$' && !s.afterDollar }
          if p.opener ≠ p.closer && (c = '\'' || c = '"' || c = '\x60') then do
            let escaping := s.afterDollar && c = '\''
            let line ← currentLine
            let text ← matched nested fuel
              { quote := c, opener := c, closer := c, inDouble := inner, allowsEscapes := escaping } line {}
            if escaping then
              let decoded := decodeEscaped text.dropLast
              let isWord := stage = .parameter ∨ stage = .replacement
              let written := if !inner || (isWord && p.isBrace) then singleQuote decoded else decoded
              matched nested fuel p start { t with found := written.reverse ++ found.drop 2, afterDollar := false }
            else matched nested fuel p start { t with found := text.reverse ++ found, afterDollar := false }
          else if p.opener = '"' && c = '\x60' then do
            let line ← currentLine
            let text ← matched nested fuel { opener := '\x60', closer := '\x60', inDouble := inner } line {}
            matched nested fuel p start { t with found := text.reverse ++ found }
          else if p.opener ≠ '\x60' && s.afterDollar && (c = '(' || c = '{' || c = '[') then do
            let line ← currentLine
            let text ←
              if c = '(' then parenthesized nested (matched nested fuel { opener := '(', closer := ')' } line {})
              else if c = '{' then
                matched nested fuel
                  { opener := '{', closer := '}', firstClose := true, isBrace := true, inDouble := inner } line {}
              else matched nested fuel { opener := '[', closer := ']', inDouble := inner } line {}
            matched nested fuel p start { t with found := text.reverse ++ found, count := s.count, afterDollar := false }
          else matched nested fuel p start t

def upTo (nested : ReadM Text) (p : Pair) : ReadM Text := do
  let i ← get
  matched nested i.limit p i.line {}

def dollar (nested : ReadM Text) (c : Char) : ReadM Text :=
  if c = '(' then parenthesized nested (upTo nested { opener := '(', closer := ')' })
  else if c = '{' then upTo nested { opener := '{', closer := '}', firstClose := true, isBrace := true }
  else upTo nested { opener := '[', closer := ']' }

/-- The rest of a word; `found` is what stands before it, the last first. `list` reads a list in
parentheses. -/
def wordFrom (nested list : ReadM Text) (place : Place) : Nat → Text → ReadM Text
  | 0, _ => throwExhausted
  | fuel + 1, found => do
    let take (t : Text) : ReadM Text := do
      skip
      wordFrom nested list place fuel (t.reverse ++ found)
    match ← peekChar with
    | none => return found.reverse
    | some c =>
      let second ← peekSecond
      if c = '\\' then
        skip
        match ← takeRaw with
        | some d => wordFrom nested list place fuel (d :: '\\' :: found)
        | none => return ('\\' :: found).reverse
      else if c = '\'' || c = '"' || c = '\x60' then
        skip
        let text ← upTo nested { quote := c, opener := c, closer := c }
        wordFrom nested list place fuel (text.reverse ++ c :: found)
      else if place.inRegex && c = '|' then take [c]
      else if place.inRegex && c = '(' then
        skip
        let text ← upTo nested { opener := '(', closer := ')' }
        wordFrom nested list place fuel (text.reverse ++ c :: found)
      else if ((← read).patternLists || place.patternLists) && c ∈ ("?*+@!" : Text) && second = some '(' then
        skip
        skip
        let text ← upTo nested { opener := '(', closer := ')' }
        wordFrom nested list place fuel (text.reverse ++ '(' :: c :: found)
      else if c = '$' then
        skip
        match ← peekChar with
        | some '(' =>
          skip
          let text ← dollar nested '('
          wordFrom nested list place fuel (text.reverse ++ '(' :: '$' :: found)
        | some '{' =>
          skip
          let text ← dollar nested '{'
          wordFrom nested list place fuel (text.reverse ++ '{' :: '$' :: found)
        | some '[' =>
          skip
          let text ← dollar nested '['
          wordFrom nested list place fuel (text.reverse ++ '[' :: '$' :: found)
        | some '\'' =>
          skip
          let text ← upTo nested { quote := '\'', opener := '\'', closer := '\'', allowsEscapes := true }
          wordFrom nested list place fuel ((singleQuote (decodeEscaped text.dropLast)).reverse ++ found)
        | some '"' =>
          skip
          let text ← upTo nested { quote := '"', opener := '"', closer := '"' }
          wordFrom nested list place fuel (text.reverse ++ '"' :: found)
        | some '$' =>
          skip
          wordFrom nested list place fuel ('$' :: '$' :: found)
        | _ => wordFrom nested list place fuel ('$' :: found)
      else if (c = '<' || c = '>') && second = some '(' then
        skip
        skip
        let text ← nested
        wordFrom nested list place fuel (text.reverse ++ '(' :: c :: found)
      else if c = '[' &&
          ((place.inList && found = []) || (place.assignable && isIdentifier found.reverse)) then
        skip
        let text ← upTo nested { opener := '[', closer := ']' }
        wordFrom nested list place fuel (text.reverse ++ '[' :: found)
      else if c = '=' && place.assignsLists && second = some '(' && isAssignmentStart found.reverse then
        skip
        skip
        let text ← list
        wordFrom nested list place fuel (text.reverse ++ '=' :: found)
      else if isMeta c then return found.reverse
      else take [c]

def tokenFrom (nested list : ReadM Text) (place : Place) : Nat → ReadM Token
  | 0 => throwExhausted
  | fuel + 1 => do
    let ended (t : Token) : ReadM Token := do
      modify fun i => { i with tokenLine := i.line }
      return t
    let sign (count : Nat) (t : Text) : ReadM Token := do
      for _ in [0:count] do
        skip
      ended (.sign t)
    match ← peekChar with
    | none => ended .stop
    | some c =>
      let second ← peekSecond
      let third := (← get).rest[2]?
      if isBlankChar c then
        skip
        tokenFrom nested list place fuel
      else if c = '#' then
        modify fun i => { i with rest := i.rest.dropWhile (· ≠ '\n') }
        tokenFrom nested list place fuel
      else if c = '\n' then
        modify fun i => { i with tokenLine := i.line }
        let _ ← takeRaw
        takeDocuments
        return .newline
      else
        match c, second, third with
        | ';', some ';', some '&' => sign 3 ";;&"
        | ';', some ';', _ => sign 2 ";;"
        | ';', some '&', _ => sign 2 ";&"
        | ';', _, _ => sign 1 ";"
        | '&', some '&', _ => sign 2 "&&"
        | '&', some '>', some '>' => sign 3 "&>>"
        | '&', some '>', _ => sign 2 "&>"
        | '&', _, _ => sign 1 "&"
        | '|', some '|', _ => sign 2 "||"
        | '|', some '&', _ => sign 2 "|&"
        | '|', _, _ => if place.inRegex then ended (.word (← wordFrom nested list place (← get).limit [])) else sign 1 "|"
        | '<', some '<', some '<' => sign 3 "<<<"
        | '<', some '<', some '-' => sign 3 "<<-"
        | '<', some '<', _ => sign 2 "<<"
        | '<', some '&', _ => sign 2 "<&"
        | '<', some '>', _ => sign 2 "<>"
        | '>', some '>', _ => sign 2 ">>"
        | '>', some '&', _ => sign 2 ">&"
        | '>', some '|', _ => sign 2 ">|"
        | '(', _, _ => if place.inRegex then ended (.word (← wordFrom nested list place (← get).limit [])) else sign 1 "("
        | ')', _, _ => sign 1 ")"
        | _, _, _ =>
          if (c = '<' || c = '>') && second ≠ some '(' then sign 1 [c]
          else
            let t := (← wordFrom nested list place (← get).limit []).takeWhile (· ≠ lost)
            let next ← peekRaw
            let redirects := next = some '<' || next = some '>'
            if redirects && t.all Char.isDigit && t ≠ [] then ended (.number (valueOf 10 t))
            else
              match t with
              | '{' :: rest =>
                if redirects && rest.getLast? = some '}' && isIdentifier rest.dropLast then
                  ended (.named rest.dropLast)
                else ended (.word t)
              | _ => ended (.word t)

def members (nested : ReadM Text) (start : Nat) : Nat → List Text → ReadM (List Text)
  | 0, _ => throwExhausted
  | fuel + 1, found => do
    let t ← tokenFrom nested (fail []) { inList := true } (← get).limit
    match t with
    | .word w => members nested start fuel (w :: found)
    | .newline => members nested start fuel found
    | .sign [')'] => return found.reverse
    | .stop =>
      throw
        { reports := [(start, "unexpected EOF while looking for matching " ++ quoted [')'])]
          status := 1
          discards := true }
    | t =>
      tryCatch (unexpected t) fun e => throw { e with status := 1, discards := true }

def token (nested : ReadM Text) (place : Place) : ReadM Token := do
  let list : ReadM Text := do
    let i ← get
    return '(' :: [' '].intercalate (← members nested i.line i.limit []) ++ [')']
  tokenFrom nested list place (← get).limit

end Lexeme
end Runbook.Shell
