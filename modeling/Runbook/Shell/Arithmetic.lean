import Runbook.Shell.State

/-!
Expressions with 64-bit numbers. Names stand for the values of variables, which are expressions themselves.
A mistake names the expression and the token that could not be used.
-/
namespace Runbook.Shell

inductive ArithError where
  | mistake (expression message token : Text)
  | unbound (name : Text)
  | refused (r : State.Refusal)

def ArithError.message : ArithError → Text
  | mistake e m t => e.dropWhile (fun c => c == ' ' || c == '\t') ++ ": " ++ m ++ " (error token is \"" ++ t ++ "\")"
  | unbound name => name ++ ": unbound variable"
  | refused r => r.message

namespace Arith

abbrev EvalM := ExceptT ArithError (StateM State)

inductive Tok where
  | stop
  | num
  | str
  | sign (t : Text)
  | assign (op : Text)
  | preInc
  | preDec
  | postInc
  | postDec
  | cond
deriving DecidableEq

/-- Where an assignment goes: a variable, an element or an entry. A subscript that means none is
refused only when something is assigned. -/
inductive Target where
  | nowhere
  | bad (written : Text)
  | whole (name : Text)
  | element (name : Text) (i : Nat)
  | entry (name key : Text)

/-- The reading of one expression. `behind` is what is left, and `last` what was left where the last
token starts; `quiet` counts reasons not to evaluate. -/
structure Scan where
  expression : Text
  behind : Text
  last : Text := []
  current : Tok := .stop
  previous : Tok := .stop
  value : Int := 0
  name : Option Text := none
  target : Target := .nowhere
  quiet : Nat := 0

abbrev ArithM := StateT Scan EvalM

def wrap (n : Int) : Int := Int.bmod n 18446744073709551616

def minimum : Int := -9223372036854775808

def throwAt {α : Type} (expression message token : Text) : ArithM α :=
  throw (.mistake expression message token)

def mistake {α : Type} (message : Text) : ArithM α := do
  let s ← get
  throwAt s.expression message s.last

def isSpace (c : Char) : Bool := c == ' ' || c == '\t' || c == '\n' || c == '\r'

/-! Tokens. -/

def digitsFrom (base : Nat) : Text → Nat → Except Text (Nat × Text)
  | [], n => .ok (n, [])
  | c :: rest, n =>
    if c = '#' then .ok (n, c :: rest)
    else
      let d : Option Nat :=
        if c.isDigit then some (c.toNat - '0'.toNat)
        else if 'a' ≤ c ∧ c ≤ 'z' then some (c.toNat - 'a'.toNat + 10)
        else if 'A' ≤ c ∧ c ≤ 'Z' then some (c.toNat - 'A'.toNat + (if base ≤ 36 then 10 else 36))
        else if c = '@' then some 62
        else if c = '_' then some 63
        else none
      match d with
      | some d =>
        if base ≤ d then .error "value too great for base"
        else digitsFrom base rest ((n * base + d) % 18446744073709551616)
      | none => .ok (n, [])

def numeral (t : Text) : Except Text Int :=
  let ofNat (n : Nat) : Int := wrap n
  let plain (base : Nat) (t : Text) : Except Text Int := do
    let (n, rest) ← digitsFrom base t 0
    match rest with
    | '#' :: _ => throw ("invalid number" : Text)
    | _ => return ofNat n
  match t with
  | ['0'] => .ok 0
  | '0' :: 'x' :: rest | '0' :: 'X' :: rest => plain 16 rest
  | '0' :: rest => plain 8 rest
  | _ => do
    let (n, rest) ← digitsFrom 10 t 0
    match rest with
    | '#' :: digits =>
      if n < 2 ∨ 64 < n then throw ("invalid arithmetic base" : Text)
      if digits = [] then throw ("invalid integer constant" : Text)
      let (m, rest) ← digitsFrom n digits 0
      match rest with
      | '#' :: _ => throw ("invalid number" : Text)
      | _ => return ofNat m
    | _ => return ofNat n

def isOperatorChar (c : Char) : Bool := c ∈ ("=<>+-*/%!()&|^~?:," : Text)

def expectsOperand : Tok → Bool
  | .stop => true
  | .num | .str | .cond => false
  | .sign t => t ≠ [')']
  | .postInc | .postDec => false
  | _ => true

def subscript : Nat → Text → Option (Text × Text)
  | _, [] => none
  | 0, ']' :: rest => some ([], rest)
  | depth, c :: rest =>
    let depth' := if c = '[' then depth + 1 else if c = ']' then depth - 1 else depth
    (subscript depth' rest).map fun (inside, after) => (c :: inside, after)

def expandNames (s : State) : Nat → Text → Text
  | 0, t => t
  | _, [] => []
  | fuel + 1, '$' :: '{' :: rest =>
    let name := rest.takeWhile isNameChar
    match rest.drop name.length with
    | '}' :: after => s.textOf name ++ expandNames s fuel after
    | _ => '$' :: '{' :: expandNames s fuel rest
  | fuel + 1, '$' :: rest =>
    let name := rest.takeWhile isNameChar
    if name = [] then '$' :: expandNames s fuel rest
    else if name.all Char.isDigit then
      let n := (name.take 1).foldl (fun n c => n * 10 + (c.toNat - 48)) 0
      (if n = 0 then s.name else s.arguments.getD (n - 1) []) ++ expandNames s fuel (rest.drop 1)
    else s.textOf name ++ expandNames s fuel (rest.drop name.length)
  | fuel + 1, c :: rest => c :: expandNames s fuel rest

def dropQuotes (t : Text) : Text := t.filter fun c => c ≠ '"' ∧ c ≠ '\''

def elementIndex? (s : State) (name : Text) (i : Int) : Option Nat :=
  if 0 ≤ i then some i.toNat
  else
    let next : Nat := Elements.next (((s.lookup? name).map (·.value.elements)).getD [])
    let j := (next : Int) + i
    if j < 0 then none else some j.toNat

section
variable (sub : Text → EvalM Int)

def valueOfText (t : Text) : EvalM Int := if t.all isSpace then pure 0 else sub t

def locate (written : Text) : EvalM Target := do
  match written.cutAt (· == '[') with
  | none => return .whole ((← get).follow written)
  | some (base, inside) =>
    let s ← get
    let name := s.follow base
    let key := expandNames s (inside.length + 1) inside.dropLast
    if key = [] then return .bad written
    else if ((s.find? name).map (·.value.isKeyed)).getD false then return .entry name (dropQuotes key)
    else
      let i ← valueOfText sub (dropQuotes key)
      match elementIndex? (← get) name i with
      | some i => return .element name i
      | none => return .bad written

def held (t : Target) : EvalM (Option Text) := do
  let s ← get
  match t with
  | .nowhere => return none
  | .bad written =>
    let name := written.takeWhile (· ≠ '[')
    let said := if written = name ++ "[]" then [written, written] else [name]
    set { s with notes := s.notes ++ said.map fun (t : Text) => t ++ ": bad array subscript" }
    return none
  | .whole name =>
    match name.cutAt (· == '[') with
    | some _ => return none
    | none =>
      set (s.afterLooking name)
      return (s.lookup? name).bind (·.value.text?)
  | .element name i => return (s.lookup? name).bind fun v => v.value.elements.lookup i
  | .entry name key => return (s.lookup? name).bind fun v => v.value.entries.lookup key

def lookUp (written : Text) : EvalM (Int × Target) := do
  let target ← locate sub written
  match ← held target with
  | some t => return (← valueOfText sub t, target)
  | none =>
    let s ← get
    let name := written.takeWhile (· ≠ '[')
    let isKnown : Bool := match target with
      | .whole _ => false
      | _ => ((s.lookup? (s.follow name)).map (·.value.isSet)).getD false
    if s.isOn .nounset ∧ ¬isKnown then throw (.unbound name)
    return (0, target)

def store (target : Target) (n : Int) : EvalM Unit := do
  let s ← get
  let t := Text.ofInt n
  let changed : Except State.Refusal State :=
    match target with
    | .nowhere => .ok s
    | .bad written => .error (.badSubscript written)
    | .whole name => s.setText name t
    | .element name i => s.setElement name i t
    | .entry name key => s.setEntry name key t
  match changed with
  | .ok s => set s
  | .error r => throw (.refused r)

def signAt (previous : Tok) (c : Char) (rest : Text) : Option (Tok × Text) :=
  let double (t : Text) : Option (Tok × Text) := some (.sign t, rest.drop 1)
  match c, rest with
  | '=', '=' :: _ => double "=="
  | '!', '=' :: _ => double "!="
  | '>', '=' :: _ => double ">="
  | '<', '=' :: _ => double "<="
  | '<', '<' :: '=' :: more => some (.assign "<<", more)
  | '<', '<' :: _ => double "<<"
  | '>', '>' :: '=' :: more => some (.assign ">>", more)
  | '>', '>' :: _ => double ">>"
  | '&', '&' :: _ => double "&&"
  | '|', '|' :: _ => double "||"
  | '*', '*' :: _ => double "**"
  | '+', '+' :: more =>
    if previous = .str then some (.postInc, more)
    else if ((more.dropWhile isSpace).head?).any isNameStart then some (.preInc, more)
    else some (.sign ['+'], rest)
  | '-', '-' :: more =>
    if previous = .str then some (.postDec, more)
    else if ((more.dropWhile isSpace).head?).any isNameStart then some (.preDec, more)
    else some (.sign ['-'], rest)
  | c, '=' :: more => if c ∈ ("*/%+-&^|" : Text) then some (.assign [c], more) else none
  | _, _ => none

def assignsNext (t : Text) : Bool :=
  match t.dropWhile isSpace with
  | '=' :: '=' :: _ => false
  | '=' :: _ => true
  | _ => false

def readToken : ArithM Unit := do
  let s ← get
  let here := s.behind.dropWhile isSpace
  match here with
  | [] => set { s with previous := s.current, current := .stop, behind := [] }
  | c :: rest =>
    let s := { s with last := here, behind := here }
    set s
    if isNameStart c then
      let name := here.takeWhile isNameChar
      let after := here.drop name.length
      let (written, after) ←
        match after with
        | '[' :: inside =>
          match subscript 0 inside with
          | some (key, after) => pure (name ++ '[' :: key ++ [']'], after)
          | none => mistake "bad array subscript"
        | _ => pure (name, after)
      let evaluates := s.quiet = 0 &&
        (s.current = .preInc || s.current = .preDec || !assignsNext after)
      let (value, target) ←
        if evaluates then (lookUp sub written : EvalM (Int × Target))
        else if s.quiet = 0 then
          let t ← (locate sub written : EvalM Target)
          pure (0, t)
        else pure (0, .nowhere)
      modify fun s =>
        { s with
          behind := after
          name := some written
          value := value
          target := target
          previous := s.current
          current := .str }
    else if c.isDigit then
      let digits := here.takeWhile fun c => c.isAlphanum || c == '#' || c == '@' || c == '_'
      match numeral digits with
      | .ok n =>
        set { s with behind := here.drop digits.length, value := n, previous := s.current, current := .num }
      | .error message =>
        throwAt (s.expression.take (s.expression.length - (here.length - digits.length))) message digits
    else
      match signAt s.current c rest with
      | some (t, after) => set { s with behind := after, previous := s.current, current := t }
      | none =>
        if isOperatorChar c then set { s with behind := rest, previous := s.current, current := .sign [c] }
        else if expectsOperand s.current then mistake "syntax error: operand expected"
        else mistake "syntax error: invalid arithmetic operator"

/-! Levels of binding, the closest first. -/

def isSign (t : Text) : ArithM Bool := do return (← get).current = .sign t

def evaluates : ArithM Bool := do return (← get).quiet = 0

def noteNumber : ArithM Unit := modify fun s => { s with previous := .num }

/-- Runs without evaluating if `quietly`. -/
def quietIf {α : Type} (quietly : Bool) (m : ArithM α) : ArithM α := do
  if quietly then
    modify fun s => { s with quiet := s.quiet + 1 }
    let a ← m
    modify fun s => { s with quiet := s.quiet - 1 }
    return a
  else m

def operand (inner : ArithM Int) : ArithM Int := do
  let s ← get
  match s.current with
  | .preInc | .preDec =>
    let change : Int := if s.current = .preInc then 1 else -1
    readToken sub
    let t ← get
    if t.current ≠ .str then mistake "identifier expected after pre-increment or pre-decrement"
    let n := wrap (t.value + change)
    if ← evaluates then (store t.target n : EvalM Unit)
    modify fun s => { s with current := .num }
    readToken sub
    return n
  | .sign ['('] =>
    readToken sub
    let n ← inner
    if ← isSign [')'] then
      readToken sub
      return n
    else mistake "missing \x60)'"
  | .num =>
    readToken sub
    return s.value
  | .str =>
    let next := s.behind.dropWhile isSpace
    let change? : Option Int :=
      match next with
      | '+' :: '+' :: _ => some 1
      | '-' :: '-' :: _ => some (-1)
      | _ => none
    match change? with
    | some change =>
      if ← evaluates then (store s.target (wrap (s.value + change)) : EvalM Unit)
      modify fun t => { t with behind := next.drop 2, last := next, previous := .str, current := .num }
      readToken sub
      return s.value
    | none =>
      readToken sub
      return s.value
  | _ => mistake "syntax error: operand expected"

def unary (inner : ArithM Int) : Nat → ArithM Int
  | 0 => return 0
  | fuel + 1 => do
    let apply (f : Int → Int) : ArithM Int := do
      readToken sub
      let n ← unary inner fuel
      noteNumber
      return f n
    match (← get).current with
    | .sign ['!'] => apply fun n => if n = 0 then 1 else 0
    | .sign ['~'] => apply fun n => wrap (-n - 1)
    | .sign ['-'] => apply fun n => wrap (-n)
    | .sign ['+'] => apply id
    | _ => operand sub inner

def power : Nat → Int → Nat → Int
  | 0, _, _ => 1
  | fuel + 1, base, n =>
    if n = 0 then 1
    else
      let half := power fuel (wrap (base * base)) (n / 2)
      if n % 2 = 1 then wrap (half * base) else half

def powers (inner : ArithM Int) (limit : Nat) : Nat → ArithM Int
  | 0 => return 0
  | fuel + 1 => do
    let a ← unary sub inner limit
    if ← isSign "**" then
      readToken sub
      let b ← powers inner limit fuel
      noteNumber
      if b = 0 then return 1
      if b < 0 then mistake "exponent less than 0"
      return power 64 a b.toNat
    else return a

def leftward (ops : List Text) (apply : Text → Text → Int → Int → ArithM Int) (operand : ArithM Int) :
    Nat → Int → ArithM Int
  | 0, a => return a
  | fuel + 1, a => do
    let s ← get
    match s.current with
    | .sign op =>
      if op ∈ ops then do
        readToken sub
        let b ← operand
        let n ← apply op (s.behind.dropWhile isSpace) a b
        noteNumber
        leftward ops apply operand fuel n
      else return a
    | _ => return a

def divide (op token : Text) (a b : Int) : ArithM Int := do
  if b = 0 then
    if ← evaluates then throwAt (← get).expression "division by 0" token
    else return if op = ['/'] then a else 0
  else if a = minimum ∧ b = -1 then return if op = ['/'] then a else 0
  else return if op = ['/'] then Int.tdiv a b else Int.tmod a b

def bits (n : Int) : Nat := (n % 18446744073709551616).toNat

def bitwise (f : Nat → Nat → Nat) (a b : Int) : Int := wrap (f (bits a) (bits b))

def shiftCount (n : Int) : Nat := (n % 64).toNat

def truth (b : Bool) : Int := if b then 1 else 0

def apply (op token : Text) (a b : Int) : ArithM Int :=
  match String.ofList op with
  | "*" => return wrap (a * b)
  | "/" | "%" => divide op token a b
  | "+" => return wrap (a + b)
  | "-" => return wrap (a - b)
  | "<<" => return wrap (a * Nat.pow 2 (shiftCount b))
  | ">>" => return Int.fdiv a (Nat.pow 2 (shiftCount b))
  | "<" => return truth (a < b)
  | ">" => return truth (b < a)
  | "<=" => return truth (a ≤ b)
  | ">=" => return truth (b ≤ a)
  | "==" => return truth (a = b)
  | "!=" => return truth (a ≠ b)
  | "&" => return bitwise (· &&& ·) a b
  | "^" => return bitwise (· ^^^ ·) a b
  | "|" => return bitwise (· ||| ·) a b
  | _ => return 0

def levels : List (List Text) :=
  [["*", "/", "%"], ["+", "-"], ["<<", ">>"], ["<", ">", "<=", ">="], ["==", "!="], ["&"], ["^"], ["|"]]

def atLevel (limit : Nat) (operand : ArithM Int) (ops : List Text) : ArithM Int := do
  let a ← operand
  leftward sub ops apply operand limit a

def binary (inner : ArithM Int) (limit : Nat) : ArithM Int :=
  levels.foldl (atLevel sub limit) (powers sub inner limit limit)

def conjunctions (inner : ArithM Int) (limit : Nat) : Nat → Int → ArithM Int
  | 0, a => return a
  | fuel + 1, a => do
    if ← isSign "&&" then do
      let b ← quietIf (a = 0) do
        readToken sub
        binary sub inner limit
      modify fun s => { s with previous := .sign "&&" }
      conjunctions inner limit fuel (truth (a ≠ 0 && b ≠ 0))
    else return a

def disjunctions (inner : ArithM Int) (limit : Nat) : Nat → Int → ArithM Int
  | 0, a => return a
  | fuel + 1, a => do
    if ← isSign "||" then do
      let b ← quietIf (a ≠ 0) do
        readToken sub
        let b ← binary sub inner limit
        conjunctions sub inner limit limit b
      modify fun s => { s with previous := .sign "||" }
      disjunctions inner limit fuel (truth (a ≠ 0 || b ≠ 0))
    else return a

def conditional (inner : ArithM Int) (limit : Nat) : Nat → ArithM Int
  | 0 => return 0
  | fuel + 1 => do
    let a ← binary sub inner limit
    let a ← conjunctions sub inner limit limit a
    let test ← disjunctions sub inner limit limit a
    if ← isSign ['?'] then do
      let yes ← quietIf (test = 0) do
        readToken sub
        if (← get).current = .stop || (← isSign [':']) then mistake "expression expected"
        inner
      if !(← isSign [':']) then mistake "\x60:' expected for conditional expression"
      let no ← quietIf (test ≠ 0) do
        readToken sub
        if (← get).current = .stop then mistake "expression expected"
        conditional inner limit fuel
      modify fun s => { s with previous := .cond }
      return if test ≠ 0 then yes else no
    else return test

def assignment (inner : ArithM Int) (limit : Nat) : Nat → ArithM Int
  | 0 => return 0
  | fuel + 1 => do
    let a ← conditional sub inner limit limit
    let s ← get
    let op? : Option Text :=
      match s.current with
      | .sign ['='] => some []
      | .assign op => some op
      | _ => none
    match op? with
    | none => return a
    | some op =>
      if s.previous ≠ .str then mistake "attempted assignment to non-variable"
      if s.name = none then mistake "syntax error in variable assignment"
      readToken sub
      let b ← assignment inner limit fuel
      let n ←
        if op = [] then pure b
        else if (op = ['/'] ∨ op = ['%']) ∧ b = 0 then
          if ← evaluates then mistake "division by 0" else pure a
        else apply op [] a b
      if ← evaluates then (store s.target n : EvalM Unit)
      modify fun s => { s with name := none }
      return n

def commas (inner : ArithM Int) (limit : Nat) : Nat → ArithM Int
  | 0 => return 0
  | fuel + 1 => do
    let a ← assignment sub inner limit limit
    if ← isSign [','] then do
      readToken sub
      commas inner limit fuel
    else return a

def nested (limit : Nat) : Nat → ArithM Int
  | 0 => return 0
  | depth + 1 => fun s => commas sub (nested limit depth) limit limit s

def whole (t : Text) : EvalM Int := do
  let limit := t.length + 2
  let run : ArithM Int := do
    readToken sub
    let n ← nested sub limit limit
    if (← get).current ≠ .stop then mistake "syntax error in expression"
    return n
  let (n, _) ← run.run { expression := t, behind := t }
  return n

end

def depthLimit : Nat := 1025

def evaluateWithin : Nat → Text → EvalM Int
  | 0, t => throw (.mistake t "expression recursion level exceeded" t)
  | depth + 1, t => fun s => whole (evaluateWithin depth) t s

def evaluate (t : Text) : EvalM Int := if t.all isSpace then pure 0 else evaluateWithin depthLimit t

end Arith

def State.evaluate (s : State) (t : Text) : Except ArithError Int × State := (Arith.evaluate t).run.run s

end Runbook.Shell
