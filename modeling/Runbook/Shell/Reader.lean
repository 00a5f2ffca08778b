import Runbook.Shell.Lexeme

/-!
Reading shell text into commands, one line at a time: what stands before a mistake has been run when it is
found. Commands inside others are read by the argument `inner`, so the recursion is in one place.
-/
namespace Runbook.Shell
namespace Reader
open ReadM Lexeme

def closers : List Text := ["then", "else", "elif", "fi", "do", "done", "esac", "\x7d"]

def redirectSigns : List Text := ["<", ">", ">>", "<<", "<<-", "<<<", "<&", ">&", "&>", "&>>", ">|", "<>"]

def isRedirect : Token → Bool
  | .number _ | .named _ => true
  | .sign s => s ∈ redirectSigns
  | _ => false

def startsCommand : Token → Bool
  | .word t => t ∉ closers
  | .sign s => s = ['('] || s ∈ redirectSigns
  | .number _ | .named _ => true
  | .newline | .stop => false

def assigningCommands : List Text :=
  ["alias", "declare", "export", "local", "readonly", "typeset", "eval", "let"]

def isUnaryTest (t : Text) : Bool :=
  match t with
  | ['-', c] => c ∈ ("abcdefghknoprstuvwxzGLNORS" : Text)
  | _ => false

def isBinaryTest (t : Text) : Bool :=
  t ∈ (["=", "==", "!=", "-nt", "-ot", "-ef", "-eq", "-ne", "-lt", "-le", "-gt", "-ge"] : List Text)

def splitCount : Nat → Text → List Text
  | _, [] => [[]]
  | depth, c :: rest =>
    if c = ';' ∧ depth = 0 then [] :: splitCount depth rest
    else
      let depth := if c = '(' then depth + 1 else if c = ')' then depth - 1 else depth
      match splitCount depth rest with
      | [] => [[c]]
      | part :: more => (c :: part) :: more

def addRedirect (r : Redirect) : Command → Command
  | .simple line words rs => .simple line words (rs ++ [r])
  | .redirected c rs => .redirected c (rs ++ [r])
  | c => .redirected c [r]

def ofItems : List (Command × Separator) → Command
  | [(c, .semicolon)] | [(c, .newline)] => c
  | items => .list items

def trimLeft (t : Text) : Text := t.dropWhile isBlankChar

/-! Tokens. -/

def advance : ReadM Unit := modify fun i => { i with look := none }

section
variable (nested : ReadM Text)

def peek (place : Lexeme.Place) : ReadM Token := do
  match (← get).look with
  | some t => return t
  | none =>
    let t ← token nested place
    modify fun i => { i with look := some t }
    return t

def skipNewlinesFrom : Nat → ReadM Unit
  | 0 => throwExhausted
  | fuel + 1 => do
    match ← peek nested .command with
    | .newline =>
      advance
      skipNewlinesFrom fuel
    | _ => return ()

def skipNewlines : ReadM Unit := do skipNewlinesFrom nested (← get).limit

def expect (w : Text) : ReadM Unit := do
  let t ← peek nested .command
  if t = .word w then advance else unexpected t

def expectSign (s : Text) : ReadM Unit := do
  let t ← peek nested {}
  if t = .sign s then advance else unexpected t

/-! Redirections. -/

def redirectTo (source : RedirectSource) (s w : Text) : ReadM Redirect := do
  let kind (k : RedirectKind) : ReadM Redirect := return ⟨source, k, w⟩
  match String.ofList s with
  | "<" => kind .input
  | ">" => kind .output
  | ">>" => kind .append
  | ">|" => kind .clobber
  | "<>" => kind .both
  | "<&" => kind .copyInput
  | ">&" => kind .copyOutput
  | "&>" => kind .allOutput
  | "&>>" => kind .allAppend
  | "<<<" => kind .hereString
  | _ =>
    let i ← get
    let isLiteral := w.any fun c => c = '\'' ∨ c = '"' ∨ c = '\\'
    let strips := s = "<<-"
    let a : Awaited := ⟨i.nextId, removeQuotes w, strips, isLiteral⟩
    set { i with nextId := i.nextId + 1, awaited := i.awaited ++ [a] }
    kind (.document a.id strips isLiteral [])

def redirection : ReadM Redirect := do
  let source ←
    match ← peek nested {} with
    | .number n =>
      advance
      pure (RedirectSource.number n)
    | .named name =>
      advance
      pure (.named name)
    | _ => pure .usual
  match ← peek nested {} with
  | .sign s =>
    advance
    match ← peek nested {} with
    | .word w =>
      advance
      redirectTo source s w
    | .number n =>
      if s = "<&" ∨ s = ">&" then
        advance
        redirectTo source s (Text.ofNat n)
      else unexpected (.number n)
    | t => unexpected t
  | t => unexpected t

def redirectionsFrom : Nat → ReadM (List Redirect)
  | 0 => throwExhausted
  | fuel + 1 => do
    if isRedirect (← peek nested {}) then do
      let r ← redirection nested
      return r :: (← redirectionsFrom fuel)
    else return []

def withRedirections (c : Command) : ReadM Command := do
  match ← redirectionsFrom nested (← get).limit with
  | [] => return c
  | rs => return .redirected c rs

/-! Conditions. -/

def behind : ReadM Token := do
  skipNewlines nested
  peek nested {}

def tokenLine : ReadM Nat := do return (← get).tokenLine

def badArgument {α : Type} (t : Token) (kind : Text) : ReadM α := do
  nearHere [(← tokenLine, "unexpected argument " ++ quoted (Token.text t) ++ " to conditional " ++ kind ++
    " operator")]

/-- A condition with the token behind it, one for each level of binding. -/
structure ConditionReader where
  either : ReadM (Condition × Token)
  term : ReadM (Condition × Token)

def comparison (w : Text) : ReadM (Condition × Token) := do
  let isClosing (t : Token) : Bool :=
    t = .word "]]" || t = .sign ['&', '&'] || t = .sign ['|', '|'] || t = .sign [')']
  let op ← peek nested {}
  if isClosing op then return (.unary "-n" w, op)
  else
    let sign? : Option Text :=
      match op with
      | .word o => if isBinaryTest o ∨ o = "=~" then some o else none
      | .sign s => if s = ['<'] ∨ s = ['>'] then some s else none
      | _ => none
    match sign? with
    | some o =>
      advance
      let place : Lexeme.Place :=
        { inRegex := o = "=~", patternLists := o ∈ (["=", "==", "!="] : List Text) }
      let right ←
        if place.inRegex then
          tryCatch (peek nested place) fun e => do
            let more : List (Nat × Text) :=
              [((← get).line, "unexpected argument to conditional binary operator")]
            throw { e with reports := e.reports ++ more }
        else peek nested place
      match right with
      | .word r =>
        if r = "]]" then badArgument right "binary"
        else
          advance
          return (.binary o w r, ← behind nested)
      | _ => badArgument right "binary"
    | none =>
      match op with
      | .word _ =>
        nearHere [(← tokenLine, "conditional binary operator expected")]
      | op =>
        nearHere [(← tokenLine,
          "unexpected token " ++ quoted (Token.text op) ++ ", conditional binary operator expected")]

def termStep (inside : ConditionReader) : ReadM (Condition × Token) := do
  let t ← behind nested
  let line ← currentLine
  match t with
  | .word [']', ']'] => nearHere []
  | .sign ['('] =>
    advance
    let (c, t) ← inside.either
    if t = .sign [')'] then
      advance
      return (.grouped c, ← behind nested)
    else
      match t with
      | .word w =>
        if w = "]]" then
          nearHere [(line, "unexpected token " ++ quoted "]]" ++ ", expected " ++ quoted ")")]
        else nearHere [(line, "expected " ++ quoted ")")]
      | t => nearHere [(line, "unexpected token " ++ quoted (Token.text t) ++ ", expected " ++ quoted ")")]
  | .word ['!'] =>
    advance
    let (c, t) ← inside.term
    return (.negated c, t)
  | .word w =>
    advance
    if isUnaryTest w then
      let operand ← peek nested {}
      match operand with
      | .word o =>
        if o = "]]" then badArgument operand "unary"
        else
          advance
          return (.unary w o, ← behind nested)
      | _ => badArgument operand "unary"
    else comparison nested w
  | .number _ =>
    nearHere [(← tokenLine, "unexpected token 284 in conditional command")]
  | t =>
    nearHere [(← tokenLine, "unexpected token " ++ quoted (Token.text t) ++ " in conditional command")]

def bothOf (inside : ConditionReader) : Nat → ReadM (Condition × Token)
  | 0 => throwExhausted
  | fuel + 1 => do
    let (a, t) ← inside.term
    if t = .sign ['&', '&'] then
      advance
      let (b, t) ← bothOf inside fuel
      return (.both a b, t)
    else return (a, t)

def eitherOf (inside : ConditionReader) : Nat → ReadM (Condition × Token)
  | 0 => throwExhausted
  | fuel + 1 => do
    let (a, t) ← bothOf inside (← get).limit
    if t = .sign ['|', '|'] then
      advance
      let (b, t) ← eitherOf inside fuel
      return (.either a b, t)
    else return (a, t)

def conditions : Nat → ConditionReader
  | 0 => ⟨throwExhausted, throwExhausted⟩
  | fuel + 1 =>
    let term := termStep nested (conditions fuel)
    ⟨do eitherOf ⟨throwExhausted, term⟩ (← get).limit, term⟩

def conditional : ReadM Command := do
  let start ← currentLine
  let (c, t) ← (conditions nested (← get).limit).either
  match t with
  | .word [']', ']'] =>
    advance
    return .condition start c
  | .stop =>
    throw
      { reports := [(start, "unexpected EOF while looking for " ++ quoted "]]"),
          (← tokenLine, "syntax error: unexpected end of file")] }
  | .word _ => nearHere [(start, "syntax error in conditional expression")]
  | t =>
    nearHere [(start, "syntax error in conditional expression: unexpected token " ++ quoted (Token.text t))]

/-! Compound commands. -/

variable (inner : ReadM Command)

/-- The inside of double parentheses, if they close as such. Otherwise they are read once more; if the inner
one then ends a line, the first word behind it is lost. -/
def arithmeticText : ReadM (Option Text) := do
  let before ← get
  skip
  let text ← upTo nested { opener := '(', closer := ')' }
  match (← get).rest with
  | ')' :: _ =>
    skip
    return some text.dropLast
  | '\n' :: rest =>
    let taken := before.rest.take (before.rest.length - rest.length)
    set { before with rest := taken ++ lost :: (if rest = [] then ['\n'] else rest) }
    return none
  | _ =>
    set before
    return none

def subshell : ReadM Command := do
  let body ← inner
  expectSign nested [')']
  return .subshell (← tokenLine) body

def branches : Nat → ReadM Command
  | 0 => throwExhausted
  | fuel + 1 => do
    let test ← inner
    expect nested "then"
    let yes ← inner
    match ← peek nested {} with
    | .word ['e', 'l', 's', 'e'] =>
      advance
      let no ← inner
      expect nested "fi"
      return .branch test yes (some no)
    | .word ['e', 'l', 'i', 'f'] =>
      advance
      let no ← branches fuel
      return .branch test yes (some no)
    | _ => do
      expect nested "fi"
      return .branch test yes none

def loop (isUntil : Bool) : ReadM Command := do
  let test ← inner
  expect nested "do"
  let body ← inner
  expect nested "done"
  return .loop isUntil test body

def loopBody : ReadM Command := do
  skipNewlines nested
  if (← peek nested {}) = .word ['{'] then
    advance
    let body ← inner
    expect nested "\x7d"
    return body
  else
    expect nested "do"
    let body ← inner
    expect nested "done"
    return body

def loopWords : Nat → ReadM (List Text)
  | 0 => throwExhausted
  | fuel + 1 => do
    match ← peek nested {} with
    | .word w => do
      advance
      return w :: (← loopWords fuel)
    | .sign [';'] | .newline =>
      advance
      return []
    | t => unexpected t

def loopHead : ReadM (Text × Option (List Text)) := do
  match ← peek nested {} with
  | .word name =>
    advance
    match ← peek nested {} with
    | .sign [';'] =>
      advance
      return (name, none)
    | _ => do
      skipNewlines nested
      match ← peek nested {} with
      | .word ['i', 'n'] => do
        advance
        let words ← loopWords nested (← get).limit
        return (name, some words)
      | _ => return (name, none)
  | t => unexpected t

def countLoop : ReadM Command := do
  if (← peekRaw) = some '(' then
    let start ← currentLine
    match ← arithmeticText nested with
    | some e =>
      let said (t : Text) : ReadM Command :=
        fail [(start, "syntax error: " ++ t), (start, "syntax error: " ++ quoted ("((" ++ e ++ "))"))]
      match splitCount 0 e with
      | [a, b, c] =>
        if (← peek nested {}) = .sign [';'] then advance
        let part (t : Text) : Text := if trimLeft t = [] then ['1'] else trimLeft t
        return .count start (part a) (part b) (part c) (← loopBody nested inner)
      | _ :: _ :: _ :: _ => said (quoted [';'] ++ " unexpected")
      | _ => said "arithmetic expression required"
    | none => unexpected (.sign ['('])
  else unexpected (.sign ['('])

def forLoop (line : Nat) : ReadM Command := do
  if (← peek nested {}) = .sign ['('] then
    advance
    countLoop nested inner
  else
    let (name, words) ← loopHead nested
    return .each line name words (← loopBody nested inner)

def clausePatterns : Nat → ReadM (List Text)
  | 0 => throwExhausted
  | fuel + 1 => do
    match ← peek nested {} with
    | .word w => do
      advance
      match ← peek nested {} with
      | .sign ['|'] =>
        advance
        return w :: (← clausePatterns fuel)
      | .sign [')'] =>
        advance
        return [w]
      | t => unexpected t
    | t => unexpected t

def clauses : Nat → ReadM (List (List Text × Option Command × ClauseEnd))
  | 0 => throwExhausted
  | fuel + 1 => do
    skipNewlines nested
    let t ← peek nested {}
    if t = .word "esac" then
      advance
      return []
    else
      if t = .sign ['('] then advance
      let patterns ← clausePatterns nested (← get).limit
      skipNewlines nested
      let isClauseEnd (t : Token) : Bool :=
        t = .sign [';', ';'] || t = .sign [';', '&'] || t = .sign [';', ';', '&'] || t = .word "esac"
      let body ←
        if isClauseEnd (← peek nested .command) then pure none
        else
          let c ← inner
          pure (some c)
      match ← peek nested {} with
      | .sign [';', ';'] =>
        advance
        return (patterns, body, .leave) :: (← clauses fuel)
      | .sign [';', '&'] =>
        advance
        return (patterns, body, .fall) :: (← clauses fuel)
      | .sign [';', ';', '&'] =>
        advance
        return (patterns, body, .test) :: (← clauses fuel)
      | .word ['e', 's', 'a', 'c'] =>
        advance
        return [(patterns, body, .leave)]
      | t => unexpected t

def choice (line : Nat) : ReadM Command := do
  match ← peek nested {} with
  | .word subject => do
    advance
    skipNewlines nested
    expect nested "in"
    return .choose line subject (← clauses nested inner (← get).limit)
  | t => unexpected t

def compound? : ReadM (Option Command) := do
  let t ← peek nested .command
  let line ← tokenLine
  let read (c : ReadM Command) : ReadM (Option Command) := do
    advance
    let c ← c
    let c ← withRedirections nested c
    return some c
  match t with
  | .word w =>
    match String.ofList w with
    | "if" => read do branches nested inner (← get).limit
    | "while" => read (loop nested inner false)
    | "until" => read (loop nested inner true)
    | "for" => read (forLoop nested inner line)
    | "select" => read do
      let (name, words) ← loopHead nested
      let body ← loopBody nested inner
      return .menu line name words body
    | "case" => read (choice nested inner line)
    | "\x7b" => read do
      let body ← inner
      expect nested "\x7d"
      return .group body
    | "[[" => read (conditional nested)
    | _ => return none
  | .sign ['('] => read do
    if (← peekRaw) = some '(' then do
      match ← arithmeticText nested with
      | some e => return .arithmetic (← currentLine) e
      | none => subshell nested inner
    else subshell nested inner
  | _ => return none

/-! Commands. -/

def functionBody (name : Text) : ReadM Command := do
  skipNewlines nested
  let t ← peek nested .command
  if t = .word ['\x7b'] then modify fun i => { i with bodyLine := i.tokenLine }
  match ← compound? nested inner with
  | some body =>
    let i ← get
    return .function i.nameLine i.bodyLine name body
  | none => unexpected t

/-- The rest of a simple command. `leads` tells that only assignments have been read. -/
def simpleFrom : Nat → Lexeme.Place → Bool → List Text → List Redirect → ReadM (List Text × List Redirect)
  | 0, _, _, _, _ => throwExhausted
  | fuel + 1, place, leads, words, rs => do
    let t ← peek nested place
    match t with
    | .word w =>
      advance
      if leads && !isAssignment w then
        simpleFrom fuel { assignsLists := w ∈ assigningCommands } false (words ++ [w]) rs
      else simpleFrom fuel place leads (words ++ [w]) rs
    | .sign ['('] => unexpected t
    | t =>
      if isRedirect t then
        let r ← redirection nested
        simpleFrom fuel place leads words (rs ++ [r])
      else return (words, rs)

def simple : ReadM Command := do
  match ← peek nested .command with
  | .word w =>
    advance
    let assigns := isAssignment w
    let place : Lexeme.Place := if assigns then .command else { assignsLists := w ∈ assigningCommands }
    let next ← peek nested place
    let line ← tokenLine
    if next = .sign ['('] && !assigns then
      advance
      expectSign nested [')']
      modify fun i => { i with nameLine := i.tokenLine }
      functionBody nested inner w
    else do
      let (words, rs) ← simpleFrom nested (← get).limit place assigns [w] []
      return .simple line words rs
  | t =>
    if isRedirect t then do
      let r ← redirection nested
      let _ ← peek nested .command
      let line ← tokenLine
      let (words, rs) ← simpleFrom nested (← get).limit .command true [] [r]
      return .simple line words rs
    else unexpected t

def coprocess : ReadM Command := do
  match ← compound? nested inner with
  | some c => return .coprocess "COPROC" c
  | none =>
    match ← peek nested .command with
    | .word w =>
      let before ← get
      advance
      match ← compound? nested inner with
      | some c => return .coprocess w c
      | none =>
        set before
        return .coprocess "COPROC" (← simple nested inner)
    | _ => return .coprocess "COPROC" (← simple nested inner)

def unalias : Nat → List Text → ReadM Unit
  | 0, _ => throwExhausted
  | fuel + 1, used => do
    if (← read).aliases = [] then return ()
    match ← peek nested .command with
    | .word w =>
      match (← read).aliases.lookup w with
      | some text =>
        if w ∈ used then return ()
        modify fun i => { i with look := none, rest := text ++ ' ' :: i.rest, limit := i.limit + text.length + 1 }
        unalias fuel (w :: used)
      | none => return ()
    | _ => return ()

def command : ReadM Command := do
  unalias nested (← get).limit []
  match ← compound? nested inner with
  | some c => return c
  | none =>
    let t ← peek nested .command
    match t with
    | .word w =>
      if w = "function" then
        advance
        match ← peek nested {} with
        | .word name =>
          advance
          modify fun i => { i with nameLine := i.tokenLine }
          if (← peek nested {}) = .sign ['('] then
            advance
            expectSign nested [')']
          functionBody nested inner name
        | t => unexpected t
      else if w = "coproc" then
        advance
        coprocess nested inner
      else if w ∈ closers ∨ w = "in" ∨ w = ['!'] then unexpected t
      else simple nested inner
    | _ => simple nested inner

def pipelineFrom : Nat → Command → ReadM Command
  | 0, _ => throwExhausted
  | fuel + 1, c => do
    match ← peek nested {} with
    | .sign ['|'] => do
      advance
      skipNewlines nested
      let next ← command nested inner
      return .pipe c (← pipelineFrom fuel next)
    | .sign ['|', '&'] =>
      advance
      skipNewlines nested
      let next ← command nested inner
      return .pipe (addRedirect ⟨.number 2, .copyOutput, ['1']⟩ c) (← pipelineFrom fuel next)
    | _ => return c

def pipelineStep : Nat → ReadM Command
  | 0 => throwExhausted
  | fuel + 1 => do
    let isEnd (t : Token) : Bool := t = .newline || t = .stop || t = .sign [';']
    let t ← peek nested .command
    if t = .word ['!'] then
      advance
      let line ← tokenLine
      if isEnd (← peek nested .command) then return .inverted (.simple line [] [])
      else return .inverted (← pipelineStep fuel)
    else if t = .word "time" then
      advance
      let isPosix := (← peek nested .command) = .word "-p"
      if isPosix then advance
      if (← peek nested .command) = .word "--" then advance
      if isEnd (← peek nested .command) then return .timed isPosix none
      else return .timed isPosix (some (← pipelineStep fuel))
    else do
      let c ← command nested inner
      pipelineFrom nested inner (← get).limit c

def pipeline : ReadM Command := do pipelineStep nested inner (← get).limit

def chainFrom : Nat → Command → ReadM Command
  | 0, _ => throwExhausted
  | fuel + 1, c => do
    match ← peek nested {} with
    | .sign ['&', '&'] => do
      advance
      skipNewlines nested
      let next ← pipeline nested inner
      chainFrom fuel (.both c next)
    | .sign ['|', '|'] => do
      advance
      skipNewlines nested
      let next ← pipeline nested inner
      chainFrom fuel (.either c next)
    | _ => return c

def chain : ReadM Command := do
  let c ← pipeline nested inner
  chainFrom nested inner (← get).limit c

def commandsFrom : Nat → Command → ReadM (List (Command × Separator))
  | 0, _ => throwExhausted
  | fuel + 1, c => do
    let goOn (s : Separator) : ReadM (List (Command × Separator)) := do
      advance
      skipNewlines nested
      if startsCommand (← peek nested .command) then do
        let next ← chain nested inner
        return (c, s) :: (← commandsFrom fuel next)
      else return [(c, s)]
    match ← peek nested {} with
    | .sign [';'] => goOn .semicolon
    | .sign ['&'] => goOn .ampersand
    | .newline => goOn .newline
    | _ => return [(c, .semicolon)]

def lineFrom : Nat → Command → ReadM (List (Command × Separator))
  | 0, _ => throwExhausted
  | fuel + 1, c => do
    let goOn (s : Separator) : ReadM (List (Command × Separator)) := do
      advance
      match ← peek nested .command with
      | .newline | .stop =>
        advance
        return [(c, s)]
      | _ => do
        let next ← chain nested inner
        return (c, s) :: (← lineFrom fuel next)
    match ← peek nested {} with
    | .sign [';'] => goOn .semicolon
    | .sign ['&'] => goOn .ampersand
    | .newline | .stop => do
      advance
      return [(c, .semicolon)]
    | t => unexpected t

end

def substitution (nested : ReadM Text) (inner : ReadM Command) : ReadM Text := do
  let awaited := (← get).awaited
  modify fun i => { i with awaited := [] }
  let body ←
    tryCatch
      (do
        skipNewlines nested
        if (← peek nested {}) = .sign [')'] then return none
        else
          let c ← inner
          return some c)
      fun e => do if e.isEnd then unclosed (← tokenLine) [')'] else throw e
  match ← peek nested {} with
  | .sign [')'] =>
    advance
    modify fun i => { i with awaited := awaited ++ i.awaited }
    let bodies := (← get).bodies
    return ((body.map fun c => (c.fill bodies).substitutionText).getD []) ++ [')']
  | .stop => unclosed (← tokenLine) [')']
  | t => unexpected t

def commands (nested : ReadM Text) (inner : ReadM Command) : ReadM Command := do
  skipNewlines nested
  let c ← chain nested inner
  return ofItems (← commandsFrom nested inner (← get).limit c)

mutual

def commandsWithin : Nat → ReadM Command
  | 0 => throwExhausted
  | depth + 1 => fun d i => commands (substitutionWithin depth) (commandsWithin depth) d i

def substitutionWithin : Nat → ReadM Text
  | 0 => throwExhausted
  | depth + 1 => fun d i => substitution (substitutionWithin depth) (commandsWithin depth) d i

end

def depthLimit : Nat := 5000

def line : ReadM (Option Command) := do
  let nested := substitutionWithin depthLimit
  let inner := commandsWithin depthLimit
  skipNewlines nested
  match ← peek nested .command with
  | .stop => return none
  | _ =>
    let c ← chain nested inner
    let items ← lineFrom nested inner (← get).limit c
    return some ((ofItems items).fill (← get).bodies)

end Reader

inductive Reading where
  | command (c : Command)
  | stop
  | failed (e : SyntaxError)

def readLine (d : Dialect) (i : Input) : Reading × Input :=
  match (Reader.line.run d).run.run { i with warnings := [], bodies := [], awaited := [], look := none } with
  | (.ok (some c), i) => (.command c, i)
  | (.ok none, i) => (.stop, i)
  | (.error e, i) =>
    let rest := (i.rest.dropWhile (· ≠ '\n')).drop 1
    (.failed e, if e.discards then { i with rest := rest, line := i.line + 1 } else i)

end Runbook.Shell
