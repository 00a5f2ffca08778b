import Runbook.Shell.Reader

/-!
The parts of a word: text that stands for itself, quoted text, and what is replaced when the word is
expanded. Parts that hold words themselves keep them as they are written.
-/
namespace Runbook.Shell

variable (d : Dialect)

inductive Piece where
  | plain (t : Text)
  | literal (t : Text)
  | double (t : Text)
  | simple (name : Text)
  | braced (t : Text)
  | command (t : Text)
  | back (t : Text)
  | arithmetic (t : Text)
  | process (isOutput : Bool) (t : Text)
  | unclosed (t : Text)

/-- Where text stands: in a word, between double quotes, or in a document. -/
inductive Quoting where
  | none
  | double
  | document
deriving DecidableEq

namespace Piece

/-! Looking for the end of what is open. Each function gives the inside and what follows. -/

def singleEnd : Text → Option (Text × Text) := Text.cutAt (· == '\'')

def backEnd : Text → Option (Text × Text)
  | [] => none
  | '\\' :: c :: rest => (backEnd rest).map fun (a, b) => ('\\' :: c :: a, b)
  | '\x60' :: rest => some ([], rest)
  | c :: rest => (backEnd rest).map fun (a, b) => (c :: a, b)

def commandEnd (t : Text) : Option (Text × Text) :=
  let i := Input.ofText 1 t
  match ((Reader.substitutionWithin Reader.depthLimit).run d).run.run i with
  | (.ok body, i) =>
    let rest := if t.getLast? = some '\n' then i.rest else i.rest.dropLast
    some (body.dropLast, rest)
  | (.error _, _) => none

def prepend (head : Text) (r : Option (Text × Text)) : Option (Text × Text) :=
  r.map fun (a, b) => (head ++ a, b)

/-- Up to a double quote (`closer`), a closing brace, bracket or parenthesis, across all that is quoted
or nested. -/
def upTo (closer : Char) : Nat → Nat → Text → Option (Text × Text)
  | 0, _, _ => none
  | _, _, [] => none
  | fuel + 1, depth, c :: rest =>
    let inner (opening : Text) (part : Option (Text × Text)) (closing : Text) : Option (Text × Text) :=
      part.bind fun (a, after) => prepend (opening ++ a ++ closing) (upTo closer fuel depth after)
    match c, rest with
    | '\\', e :: more => prepend ['\\', e] (upTo closer fuel depth more)
    | '\'', more =>
      if closer = '"' then prepend ['\''] (upTo closer fuel depth more)
      else inner ['\''] (singleEnd more) ['\'']
    | '\x60', more => inner ['\x60'] (backEnd more) ['\x60']
    | '$', '{' :: more => inner "$\x7b" (upTo '}' fuel 0 more) "\x7d"
    | '$', '(' :: '(' :: more =>
      match upTo ')' fuel 0 ('(' :: more) with
      | some (a, after) => prepend ("$(" ++ a ++ ")") (upTo closer fuel depth after)
      | none => none
    | '$', '(' :: more => inner "$(" (commandEnd d more) ")"
    | '"', more => if closer = '"' then some ([], more) else inner ['"'] (upTo '"' fuel 0 more) ['"']
    | _, _ =>
      if c = closer then
        match depth with
        | 0 => some ([], rest)
        | n + 1 => prepend [c] (upTo closer fuel n rest)
      else
        let opens := (closer = ')' ∧ c = '(') ∨ (closer = ']' ∧ c = '[')
        prepend [c] (upTo closer fuel (if opens then depth + 1 else depth) rest)

def closing (closer : Char) (t : Text) : Option (Text × Text) :=
  upTo d closer (t.length + 1) 0 t

def isBalanced : Nat → Text → Bool
  | depth, [] => depth = 0
  | depth, '(' :: rest => isBalanced (depth + 1) rest
  | 0, ')' :: _ => false
  | depth + 1, ')' :: rest => isBalanced depth rest
  | depth, _ :: rest => isBalanced depth rest

def substitution (t : Text) : Option (Piece × Text) :=
  let commands := (commandEnd d t).map fun (body, rest) => (command body, rest)
  match t with
  | '(' :: _ =>
    match closing d ')' t with
    | some (inside, rest) =>
      let body := (inside.drop 1).dropLast
      if inside.getLast? = some ')' ∧ 2 ≤ inside.length ∧ isBalanced 0 body then some (arithmetic body, rest)
      else commands
    | none => commands
  | _ => commands

def isSpecialName (c : Char) : Bool := c ∈ ("@*#?-$!" : Text)

def dollar (t : Text) : Option (Piece × Text) :=
  match t with
  | '{' :: rest =>
    match closing d '}' rest with
    | some (inside, after) => some (braced inside, after)
    | none => some (unclosed ('$' :: t), [])
  | '(' :: rest =>
    match substitution d rest with
    | some found => some found
    | none => some (unclosed ('$' :: t), [])
  | '[' :: rest => (closing d ']' rest).map fun (inside, after) => (arithmetic inside, after)
  | c :: rest =>
    if isNameStart c then
      let name := (c :: rest).takeWhile isNameChar
      some (simple name, (c :: rest).drop name.length)
    else if c.isDigit ∨ isSpecialName c then some (simple [c], rest)
    else none
  | [] => none

def isEscapable (q : Quoting) (c : Char) : Bool :=
  c == '$' || c == '\x60' || c == '\\' || (q == .double && (c == '"' || c == '}'))

def addPlain (c : Char) : List Piece → List Piece
  | plain t :: rest => plain (c :: t) :: rest
  | ps => plain [c] :: ps

def addLiteral (c : Char) : List Piece → List Piece
  | literal t :: rest => literal (c :: t) :: rest
  | ps => literal [c] :: ps

/-- The pieces of a text. Between double quotes, `inBraces` tells that the text is a word inside braces,
where a backslash also quotes a closing brace. -/
def split (q : Quoting) (inBraces : Bool) : Nat → Text → List Piece
  | 0, t => [plain t]
  | _, [] => []
  | fuel + 1, c :: rest =>
    let go (t : Text) : List Piece := split q inBraces fuel t
    match c, rest with
    | '\\', e :: more =>
      match q with
      | .none => if e = '\n' then go more else addLiteral e (go more)
      | _ =>
        if e = '\n' then go more
        else if isEscapable q e ∧ (e ≠ '}' ∨ inBraces) then addLiteral e (go more)
        else addPlain '\\' (addPlain e (go more))
    | '$', t =>
      match dollar d t with
      | some (p, after) => p :: go after
      | none => addPlain '$' (go t)
    | '\x60', t =>
      match backEnd t with
      | some (inside, after) => back inside :: go after
      | none => [unclosed ('\x60' :: t)]
    | '\'', t =>
      if q = .none then
        match singleEnd t with
        | some (inside, after) => literal inside :: go after
        | none => addPlain '\'' (go t)
      else addPlain '\'' (go t)
    | '"', t =>
      if q = .none ∨ inBraces then
        match closing d '"' t with
        | some (inside, after) => double inside :: go after
        | none => addPlain '"' (go t)
      else addPlain '"' (go t)
    | '<', '(' :: t =>
      if q = .none then
        match commandEnd d t with
        | some (body, after) => process false body :: go after
        | none => addPlain '<' (addPlain '(' (go t))
      else addPlain '<' (go ('(' :: t))
    | '>', '(' :: t =>
      if q = .none then
        match commandEnd d t with
        | some (body, after) => process true body :: go after
        | none => addPlain '>' (addPlain '(' (go t))
      else addPlain '>' (go ('(' :: t))
    | _, _ => addPlain c (go rest)

def ofText (q : Quoting) (inBraces : Bool) (t : Text) : List Piece :=
  split d q inBraces (t.length + 1) t

/-- The commands between backquotes: a backslash before a dollar sign, a backquote or another one
goes away. -/
def backCommands (inDouble : Bool) : Text → Text
  | [] => []
  | '\\' :: c :: rest =>
    if c = '$' ∨ c = '\x60' ∨ c = '\\' ∨ (inDouble ∧ c = '"') then c :: backCommands inDouble rest
    else '\\' :: c :: backCommands inDouble rest
  | c :: rest => c :: backCommands inDouble rest

end Piece

/-! What stands between braces. -/

inductive Operation where
  | value
  | fallback (nullToo : Bool) (word : Text)
  | assigned (nullToo : Bool) (word : Text)
  | required (nullToo : Bool) (word : Text)
  | alternative (nullToo : Bool) (word : Text)
  | slice (t : Text)
  | trimStart (longest : Bool) (pattern : Text)
  | trimEnd (longest : Bool) (pattern : Text)
  | replace (t : Text)
  | recase (sign : Char) (all : Bool) (pattern : Text)
  | transform (letter : Char)
deriving DecidableEq

/-- A parameter by its name: a variable, a number or a special sign, and a subscript. -/
structure Parameter where
  name : Text
  subscript : Option Text := none

inductive Braced where
  | length (p : Parameter)
  | names (start : Text) (isStar : Bool)
  | keys (name : Text) (isStar : Bool)
  | direct (p : Parameter) (op : Operation)
  | indirect (p : Parameter) (op : Operation)
  | bad

namespace Braced

def operation (t : Text) : Option Operation :=
  match t with
  | [] => some .value
  | ':' :: '-' :: w => some (.fallback true w)
  | ':' :: '=' :: w => some (.assigned true w)
  | ':' :: '?' :: w => some (.required true w)
  | ':' :: '+' :: w => some (.alternative true w)
  | '-' :: w => some (.fallback false w)
  | '=' :: w => some (.assigned false w)
  | '?' :: w => some (.required false w)
  | '+' :: w => some (.alternative false w)
  | ':' :: w => some (.slice w)
  | '#' :: '#' :: p => some (.trimStart true p)
  | '#' :: p => some (.trimStart false p)
  | '%' :: '%' :: p => some (.trimEnd true p)
  | '%' :: p => some (.trimEnd false p)
  | '/' :: r => some (.replace r)
  | '^' :: '^' :: p => some (.recase '^' true p)
  | '^' :: p => some (.recase '^' false p)
  | ',' :: ',' :: p => some (.recase ',' true p)
  | ',' :: p => some (.recase ',' false p)
  | '~' :: '~' :: p => some (.recase '~' true p)
  | '~' :: p => some (.recase '~' false p)
  | ['@', c] => some (.transform c)
  | _ => none

def parameter (t : Text) : Option (Parameter × Text) :=
  match t with
  | [] => none
  | c :: rest =>
    if isNameStart c then
      let name := t.takeWhile isNameChar
      match t.drop name.length with
      | '[' :: inside =>
        (Piece.closing d ']' inside).bind fun (key, after) =>
          if key = [] then none else some (⟨name, some key⟩, after)
      | after => some (⟨name, none⟩, after)
    else if c.isDigit then
      let name := t.takeWhile Char.isDigit
      some (⟨name, none⟩, t.drop name.length)
    else if Piece.isSpecialName c then some (⟨[c], none⟩, rest)
    else none

def plain (t : Text) : Braced :=
  match parameter d t with
  | some (p, rest) =>
    match operation rest with
    | some op => direct p op
    | none => bad
  | none => bad

def ofIndirect (t : Text) : Braced :=
  let name := t.takeWhile isNameChar
  let isName := t.head?.any isNameStart
  match isName, t.drop name.length with
  | true, ['@'] => names name false
  | true, ['*'] => names name true
  | true, ['[', '@', ']'] => keys name false
  | true, ['[', '*', ']'] => keys name true
  | _, _ =>
    match parameter d t with
    | some (p, rest) =>
      match operation rest with
      | some op => indirect p op
      | none => bad
    | none => bad

def ofText (t : Text) : Braced :=
  match t with
  | '#' :: rest =>
    match rest with
    | [] => plain d t
    | c :: more =>
      if isNameStart c ∨ c.isDigit then
        match parameter d rest with
        | some (p, []) => length p
        | _ => bad
      else if Piece.isSpecialName c ∧ more = [] then length ⟨[c], none⟩
      else plain d t
  | '!' :: rest =>
    match rest with
    | c :: _ =>
      if isNameStart c ∨ c.isDigit ∨ c = '@' ∨ c = '*' ∨ c = '#' ∨ c = '?' then ofIndirect d rest else plain d t
    | [] => plain d t
  | _ => plain d t

end Braced

end Runbook.Shell
