import Runbook.Shell.Pattern

/-!
Search expressions in the basic and the extended form. A match starts as early as it can and is then as long
as it can be.
-/
namespace Runbook.Shell

inductive Regex where
  | empty
  | exactly (c : Char)
  | anyOne
  | bracket (negated : Bool) (items : List BracketItem)
  | start
  | finish
  | textStart
  | textEnd
  | wordEdge (atStart atEnd : Bool)
  | insideWord
  | back (n : Nat)
  | group (n : Nat) (e : Regex)
  | sequence (a b : Regex)
  | either (a b : Regex)
  | repeated (e : Regex) (least : Nat) (most : Option Nat)

inductive RegexError where
  | unmatchedParenthesis
  | unmatchedBracket
  | unmatchedBrace
  | badContent
  | trailingBackslash
  | badBackReference
  | badClass
  | badPreceding
  | unmatchedClosing
  | badRange
  | badCollation
  | badPattern
  | tooBig
  | classAlone

def RegexError.message : RegexError → Text
  | unmatchedParenthesis => "Unmatched ( or \\("
  | unmatchedBracket => "Unmatched [, [^, [:, [., or [="
  | unmatchedBrace => "Unmatched \\\x7b"
  | badContent => "Invalid content of \\\x7b\\\x7d"
  | trailingBackslash => "Trailing backslash"
  | badBackReference => "Invalid back reference"
  | badClass => "Invalid character class name"
  | badPreceding => "Invalid preceding regular expression"
  | unmatchedClosing => "Unmatched ) or \\)"
  | badRange => "Invalid range end"
  | badCollation => "Invalid collation character"
  | badPattern => "Invalid regular expression"
  | tooBig => "Regular expression too big"
  | classAlone => "character class syntax is [[:space:]], not [:space:]"

/-- What the readers of expressions disagree on: whether signs need a backslash, what a repetition with
nothing before it or a second one does, which braces and parentheses stand for themselves, and whether class
names need brackets. -/
structure Regex.Grammar where
  extended : Bool
  refusesOrphans : Bool := false
  refusesDoubles : Bool := false
  looseBraces : Bool := false
  looseClosing : Bool := true
  checksClasses : Bool := false

namespace Regex

variable (g : Grammar)

/-! Reading. -/

abbrev Input := List PatternChar

structure Reading where
  rest : Input
  groups : Nat := 0
  warnings : List Text := []

abbrev ReadM := ExceptT RegexError (StateM Reading)

def classNames : List Text :=
  ["alnum", "alpha", "digit", "upper", "lower", "space", "blank", "punct", "print", "graph", "cntrl", "xdigit"]

def isClassAlone (inside : Text) : Bool :=
  inside.head? = some ':' && inside.getLast? = some ':' && inside.any (· ≠ ':')

def bracketOf : ReadM Regex := do
  let r ← get
  let negated := r.rest.head? = some ⟨'^', false⟩
  let body := if negated then r.rest.drop 1 else r.rest
  if body = [] then throw .badPattern
  -- A backslash has no meaning inside brackets.
  let plain := body.map fun p => if p.char = '\\' then { p with isQuoted := true } else p
  match bracketItems (body.length + 1) true plain with
  | some (items, after) =>
    let bad := items.any fun
      | .named name => name ∉ classNames
      | _ => false
    if bad then throw .badClass
    let inside := (body.take (body.length - after.length - 1)).map (·.char)
    if g.checksClasses ∧ !negated ∧ isClassAlone inside ∧ items.length = inside.length then throw .classAlone
    if items.any fun | .range lo hi => hi < lo | .named _ => false then throw .badRange
    set { r with rest := body.drop (body.length - after.length) }
    return .bracket negated items
  | none => throw .unmatchedBracket

def numberOf : Input → Nat → Bool → Option Nat × Input
  | p :: rest, n, any =>
    if p.char.isDigit then numberOf rest (n * 10 + (p.char.toNat - '0'.toNat)) true
    else (if any then some n else none, p :: rest)
  | [], n, any => (if any then some n else none, [])

def mostRounds : Nat := 32767

def boundsOf (extended : Bool) (t : Input) : Except RegexError (Nat × Option Nat × Input) :=
  let isClosed : Bool := if extended then t.any (·.char = '}') else
    (t.zip (t.drop 1)).any fun (a, b) => a.char = '\\' && b.char = '}'
  let refusal : RegexError := if isClosed then .badContent else .unmatchedBrace
  let close (t : Input) : Option Input :=
    match extended, t with
    | true, ⟨'}', _⟩ :: rest => some rest
    | false, ⟨'\\', _⟩ :: ⟨'}', _⟩ :: rest => some rest
    | _, _ => none
  let (low, rest) := numberOf t 0 false
  match rest with
  | ⟨',', _⟩ :: more =>
    let (high, after) := numberOf more 0 false
    match close after with
    | some after =>
      if high.any (· < low.getD 0) then .error .badContent
      else if mostRounds < high.getD (low.getD 0) then .error .tooBig
      else .ok (low.getD 0, high, after)
    | none => .error refusal
  | _ =>
    match low, close rest with
    | some n, some after => if mostRounds < n then .error .tooBig else .ok (n, some n, after)
    | _, _ => .error refusal

/-- The text behind an opening brace makes a repetition, though perhaps one that cannot be. -/
def isInterval (t : Input) : Bool :=
  let (low, rest) := numberOf t 0 false
  match rest with
  | ⟨',', _⟩ :: more => (numberOf more 0 false).2.head?.any (·.char = '}')
  | ⟨'}', _⟩ :: _ => low.isSome
  | _ => false

def repetitions : Nat → Regex → ReadM Regex
  | 0, e => return e
  | fuel + 1, e => do
    let extended := g.extended
    let r ← get
    let go (rest : Input) (e : Regex) : ReadM Regex := do
      modify fun r => { r with rest := rest }
      if g.refusesDoubles then
        match rest with
        | ⟨'*', false⟩ :: _ | ⟨'\\', false⟩ :: ⟨'{', _⟩ :: _ => throw .badPreceding
        | _ => pure ()
      repetitions fuel e
    match r.rest with
    | ⟨'*', false⟩ :: rest => go rest (.repeated e 0 none)
    | ⟨'+', false⟩ :: rest => if extended then go rest (.repeated e 1 none) else return e
    | ⟨'?', false⟩ :: rest => if extended then go rest (.repeated e 0 (some 1)) else return e
    | ⟨'\\', false⟩ :: ⟨'+', _⟩ :: rest => if extended then return e else go rest (.repeated e 1 none)
    | ⟨'\\', false⟩ :: ⟨'?', _⟩ :: rest => if extended then return e else go rest (.repeated e 0 (some 1))
    | ⟨'{', false⟩ :: rest =>
      if extended ∧ (isInterval rest ∨ !g.looseBraces) then
        match boundsOf true rest with
        | .ok (low, high, after) => go after (.repeated e low high)
        | .error x => throw x
      else return e
    | ⟨'\\', false⟩ :: ⟨'{', _⟩ :: rest =>
      if extended then return e
      else
        match boundsOf false rest with
        | .ok (low, high, after) => go after (.repeated e low high)
        | .error x => throw x
    | _ => return e

def escapeOf (c : Char) : Option Regex :=
  let word : List BracketItem := [.named "word"]
  let space : List BracketItem := [.named "space"]
  match c with
  | 'w' => some (.bracket false word)
  | 'W' => some (.bracket true word)
  | 's' => some (.bracket false space)
  | 'S' => some (.bracket true space)
  | 'b' => some (.wordEdge true true)
  | 'B' => some .insideWord
  | '<' => some (.wordEdge true false)
  | '>' => some (.wordEdge false true)
  | '\x60' => some .textStart
  | '\'' => some .textEnd
  | _ => none

def isAnchor : Regex → Bool
  | start | finish | textStart | textEnd | wordEdge .. | insideWord => true
  | _ => false

/-- One element, without its repetitions. `isFirst` tells that nothing stands before it. None at the end
of what is read. -/
def elementOf (inner : ReadM Regex) (depth : Nat) (isFirst : Bool) : ReadM (Option Regex) := do
  let extended := g.extended
  let r ← get
  -- A repetition with nothing before it.
  let orphan (sign : Text) : ReadM (Option Regex) := do
    if g.refusesOrphans then throw .badPreceding
    set { r with warnings := r.warnings ++ [sign ++ " at start of expression"] }
    return some .empty
  let take (n : Nat) (e : Regex) : ReadM (Option Regex) := do
    set { r with rest := r.rest.drop n }
    return some e
  let group (n : Nat) : ReadM (Option Regex) := do
    let number := r.groups + 1
    set { r with rest := r.rest.drop n, groups := number }
    let e ← inner
    let closed := (← get).rest
    match extended, closed with
    | true, ⟨')', false⟩ :: rest =>
      modify fun r => { r with rest := rest }
      return some (.group number e)
    | false, ⟨'\\', false⟩ :: ⟨')', _⟩ :: rest =>
      modify fun r => { r with rest := rest }
      return some (.group number e)
    | _, _ => throw .unmatchedParenthesis
  match r.rest with
  | [] => return none
  | ⟨c, true⟩ :: _ => take 1 (.exactly c)
  | ⟨'\\', false⟩ :: [] => throw .trailingBackslash
  | ⟨'\\', false⟩ :: ⟨c, _⟩ :: _ =>
    if !extended ∧ c = '(' then group 2
    else if !extended ∧ (c = ')' ∨ c = '|') then
      if c = ')' ∧ depth = 0 then throw .unmatchedClosing else return none
    else if !extended ∧ c = '{' ∧ isFirst ∧ g.refusesOrphans then throw .badPreceding
    else if c.isDigit ∧ c ≠ '0' then
      let n := c.toNat - '0'.toNat
      if r.groups < n then throw .badBackReference else take 2 (.back n)
    else
      match escapeOf c with
      | some e => take 2 e
      | none => take 2 (.exactly c)
  | ⟨'(', false⟩ :: _ => if extended then group 1 else take 1 (.exactly '(')
  | ⟨')', false⟩ :: _ =>
    if !extended then take 1 (.exactly ')')
    else if depth ≠ 0 then return none
    else if g.looseClosing then take 1 (.exactly ')')
    else throw .unmatchedClosing
  | ⟨'|', false⟩ :: _ => if extended then return none else take 1 (.exactly '|')
  | ⟨'.', false⟩ :: _ => take 1 .anyOne
  | ⟨'[', false⟩ :: _ =>
    set { r with rest := r.rest.drop 1 }
    let e ← bracketOf g
    return some e
  | ⟨'^', false⟩ :: _ => if extended ∨ isFirst then take 1 .start else take 1 (.exactly '^')
  | ⟨'$', false⟩ :: rest =>
    let isLast : Bool :=
      match rest with
      | [] => true
      | ⟨'\\', false⟩ :: ⟨c, _⟩ :: _ => c == ')' || c == '|'
      | _ => false
    if extended || isLast then take 1 .finish else take 1 (.exactly '$')
  | ⟨c, false⟩ :: rest =>
    if extended ∧ isFirst ∧ (c = '*' ∨ c = '+' ∨ c = '?') then orphan [c]
    else if extended ∧ isFirst ∧ c = '{' ∧ (!g.looseBraces ∨ isInterval rest) then orphan "\x7b...\x7d"
    else take 1 (.exactly c)

def sequenceOf (inner : ReadM Regex) (depth : Nat) : Nat → Bool → Regex → ReadM Regex
  | 0, _, sofar => return sofar
  | fuel + 1, isFirst, sofar => do
    match ← elementOf g inner depth isFirst with
    | none => return sofar
    | some e => do
      let e ←
        if !e.isAnchor then repetitions g fuel e
        else
          let r ← get
          match r.rest with
          | ⟨c, false⟩ :: _ =>
            if g.extended ∧ !g.refusesOrphans ∧ (c = '*' ∨ c = '+' ∨ c = '?') then
              if isFirst then set { r with warnings := r.warnings ++ [c :: " at start of expression"] }
              repetitions g fuel e
            else pure e
          | _ => pure e
      sequenceOf inner depth fuel e.isAnchor (if sofar matches .empty then e else .sequence sofar e)

def eitherOf (inner : ReadM Regex) (depth : Nat) : Nat → ReadM Regex
  | 0 => return .empty
  | fuel + 1 => do
    let size := (← get).rest.length + 1
    let a ← sequenceOf g inner depth size true .empty
    match g.extended, (← get).rest with
    | true, ⟨'|', false⟩ :: rest =>
      modify fun r => { r with rest := rest }
      return .either a (← eitherOf inner depth fuel)
    | false, ⟨'\\', false⟩ :: ⟨'|', _⟩ :: rest =>
      modify fun r => { r with rest := rest }
      return .either a (← eitherOf inner depth fuel)
    | _, _ => return a

def nested : Nat → Nat → ReadM Regex
  | 0, _ => return .empty
  | fuel + 1, depth => do eitherOf g (nested fuel (depth + 1)) depth ((← get).rest.length + 1)

/-- An expression that has been read, the number of its groups, and what there is to say about it. -/
structure Compiled where
  regex : Regex
  groups : Nat
  warnings : List Text := []

def parse (t : Input) : Except RegexError Compiled :=
  match (nested g (t.length + 1) 0).run.run { rest := t } with
  | (.ok e, r) => .ok ⟨e, r.groups, r.warnings⟩
  | (.error x, _) => .error x

def ofText (t : Text) : Except RegexError Compiled := parse g (t.map fun c => ⟨c, false⟩)

/-! Matching. -/

/-- The text that is searched. `byLines` tells that lines in it have their own starts and ends. -/
structure Subject where
  text : Array Char
  foldsCase : Bool := false
  notAtStart : Bool := false
  byLines : Bool := false

variable (s : Subject)

def isWordChar (c : Char) : Bool := c.isAlphanum || c == '_'

def wordAt (i : Nat) : Bool := (s.text[i]?).any isWordChar

def wordBefore (i : Nat) : Bool := i ≠ 0 && wordAt s (i - 1)

abbrev Groups := List (Nat × Nat × Nat)

def isChar (c : Char) (i : Nat) : Bool :=
  (s.text[i]?).any fun d => c == d || (s.foldsCase && c.toLower == d.toLower)

def isAny (i : Nat) : Bool := (s.text[i]?).any fun c => !s.byLines || c ≠ '\n'

def inBracket (negated : Bool) (items : List BracketItem) (i : Nat) : Bool :=
  (s.text[i]?).any fun c =>
    Pattern.itemMatches ⟨s.foldsCase⟩ negated items c && !(s.byLines && negated && c == '\n')

def atStart (i : Nat) : Bool :=
  if i = 0 then !s.notAtStart else s.byLines && s.text[i - 1]? = some '\n'

def atEnd (i : Nat) : Bool := i = s.text.size || (s.byLines && s.text[i]? = some '\n')

def repeats (start stop i : Nat) : Bool :=
  (List.range (stop - start)).all fun k => (s.text[start + k]?).any fun c => isChar s c (i + k)

/-- Goes through an expression from a place on; `k` is what comes behind it. Repetitions go on as long
as they can, and the first way that `k` accepts counts. -/
def go : Nat → Regex → Nat → Groups → (Nat → Groups → Option Groups) → Option Groups
  | 0, _, _, _, _ => none
  | fuel + 1, e, i, gs, k =>
    match e with
    | .empty => k i gs
    | .exactly c => if isChar s c i then k (i + 1) gs else none
    | .anyOne => if isAny s i then k (i + 1) gs else none
    | .bracket negated items => if inBracket s negated items i then k (i + 1) gs else none
    | .start => if atStart s i then k i gs else none
    | .finish => if atEnd s i then k i gs else none
    | .textStart => if i = 0 ∧ !s.notAtStart then k i gs else none
    | .textEnd => if i = s.text.size then k i gs else none
    | .wordEdge atStart atEnd =>
      let opens := !wordBefore s i && wordAt s i
      let closes := wordBefore s i && !wordAt s i
      if (atStart && opens) || (atEnd && closes) then k i gs else none
    | .insideWord => if wordBefore s i = wordAt s i then k i gs else none
    | .back n =>
      match gs.lookup n with
      | some (a, b) => if repeats s a b i then k (i + (b - a)) gs else none
      | none => none
    | .group n e => go fuel e i gs fun j gs => k j ((n, i, j) :: gs)
    | .sequence a b => go fuel a i gs fun j gs => go fuel b j gs k
    | .either a b => (go fuel a i gs k).or (go fuel b i gs k)
    | .repeated e least most =>
      if most = some 0 then k i gs
      else
        let again := go fuel e i gs fun j gs =>
          if j = i ∧ least = 0 then none
          else go fuel (.repeated e (least - 1) (most.map (· - 1))) j gs k
        if 0 < least then again else again.or (k i gs)

def reach : Nat → Regex → List Nat → List Nat
  | 0, _, _ => []
  | fuel + 1, e, is =>
    let union (a b : List Nat) : List Nat := a ++ b.filter (· ∉ a)
    if is.isEmpty then []
    else
      match e with
      | .empty => is
      | .exactly c => (is.filter (isChar s c)).map (· + 1)
      | .anyOne => (is.filter (isAny s)).map (· + 1)
      | .bracket negated items => (is.filter (inBracket s negated items)).map (· + 1)
      | .start => is.filter (atStart s)
      | .finish => is.filter (atEnd s)
      | .textStart => is.filter fun i => i = 0 ∧ !s.notAtStart
      | .textEnd => is.filter (· = s.text.size)
      | .wordEdge atStart atEnd =>
        is.filter fun i =>
          (atStart && !wordBefore s i && wordAt s i) || (atEnd && wordBefore s i && !wordAt s i)
      | .insideWord => is.filter fun i => wordBefore s i = wordAt s i
      | .back _ => is.flatMap fun i => (List.range (s.text.size - i + 1)).map (i + ·)
      | .group _ e => reach fuel e is
      | .sequence a b => reach fuel b (reach fuel a is)
      | .either a b => union (reach fuel a is) (reach fuel b is)
      | .repeated e least most =>
        let forced := (List.range least).foldl (fun is _ => reach fuel e is) is
        let rounds := (most.map (· - least)).getD (s.text.size + 1)
        let rec spread : Nat → List Nat → List Nat → List Nat
          | 0, all, _ => all
          | n + 1, all, fresh =>
            let next := (reach fuel e fresh).filter (· ∉ all)
            if next.isEmpty then all else spread n (all ++ next) next
        spread rounds forced forced

def size : Regex → Nat
  | group _ e | repeated e _ _ => size e + 1
  | sequence a b | either a b => size a + size b + 1
  | _ => 1

def hasBack : Regex → Bool
  | back _ => true
  | group _ e | repeated e _ _ => hasBack e
  | sequence a b | either a b => hasBack a || hasBack b
  | _ => false

def groupsOf (e : Regex) (s : Subject) (i stop : Nat) : Option Groups :=
  let fuel := (e.size + 2) * (s.text.size + 3) + 1000
  go s fuel e i [] fun j gs => if j = stop then some gs else none

def endsAt (e : Regex) (s : Subject) (i : Nat) : List Nat :=
  let candidates := (reach s (e.size + 1) e [i]).mergeSort fun a b => b ≤ a
  if e.hasBack then candidates.filter fun stop => (groupsOf e s i stop).isSome else candidates

def matchAt (e : Regex) (s : Subject) (i : Nat) : Option (Nat × Groups) :=
  let candidates := (reach s (e.size + 1) e [i]).mergeSort fun a b => b ≤ a
  let found (stop : Nat) : Option (Nat × Groups) := (groupsOf e s i stop).map (stop, ·)
  if e.hasBack then candidates.findSome? found
  else
    match candidates with
    | stop :: _ => some ((found stop).getD (stop, []))
    | [] => none

def searchFrom (e : Regex) (s : Subject) : Nat → Nat → Option (Nat × Nat × Groups)
  | 0, _ => none
  | fuel + 1, i =>
    match e.matchAt s i with
    | some (stop, gs) => some (i, stop, gs)
    | none => searchFrom e s fuel (i + 1)

def search (e : Regex) (s : Subject) (i : Nat) : Option (Nat × Nat × Groups) :=
  searchFrom e s (s.text.size + 1 - i) i

def Subject.slice (start stop : Nat) : Text := (s.text.extract start stop).toList

end Regex

end Runbook.Shell
