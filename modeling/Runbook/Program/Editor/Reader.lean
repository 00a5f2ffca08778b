import Runbook.Program.Editor.Script

/-!
Reading scripts. Mistakes are reported with the part of the script and a character in it, or with a file and
a line.
-/
namespace Runbook.Program.Editor
open Shell (Regex PatternChar)

inductive Origin where
  | argument (number : Nat)
  | file (name : Text)

/-- The part that is being read, and what has been read of the script so far. `open_` are the steps at
which blocks start; `pending` is the start of a text that goes on in the next part. -/
structure Reading where
  origin : Origin
  rest : Text
  total : Nat
  isFirst : Bool := true
  extended : Bool := false
  steps : Array Step := #[]
  labels : List (Text × Nat) := []
  jumps : List Text := []
  open_ : List (Nat × Origin) := []
  pending : Option (Text → Action) := none
  pendingSelection : Selection := {}
  silent : Bool := false

abbrev ReadM := StateT Reading (Except (Text × Nat))

namespace ReadM

def placeText (origin : Origin) (read line : Nat) : Text :=
  match origin with
  | .argument n => "-e expression #" ++ Text.ofNat n ++ ", char " ++ Text.ofNat read ++ ": "
  | .file name => "file " ++ name ++ " line " ++ Text.ofNat line ++ ": "

def refuse {α : Type} (t : Text) : ReadM α := do
  let r ← get
  match r.origin with
  | .argument _ => throw (placeText r.origin (r.total - r.rest.length) 0 ++ t, 1)
  | .file _ => throw (placeText r.origin 0 (r.total - (r.rest.filter (· == '\n')).length) ++ t, 1)

def take : ReadM (Option Char) := do
  let r ← get
  match r.rest with
  | [] => return none
  | c :: rest =>
    set { r with rest := rest }
    return some c

def peek : ReadM (Option Char) := do return (← get).rest.head?

def drop (n : Nat) : ReadM Unit := modify fun r => { r with rest := r.rest.drop n }

def isBlank (c : Char) : Bool := c == ' ' || c == '\t'

def skipBlanks : ReadM Unit := modify fun r => { r with rest := r.rest.dropWhile isBlank }

def number : ReadM Nat := do
  let r ← get
  let digits := r.rest.takeWhile Char.isDigit
  set { r with rest := r.rest.drop digits.length }
  return digitsValue digits

def restOfLine : ReadM Text := do
  let r ← get
  let t := r.rest.takeWhile (· ≠ '\n')
  set { r with rest := r.rest.drop (t.length + 1) }
  return t

def endOfCommand : ReadM Unit := do
  skipBlanks
  match ← peek with
  | none => return ()
  | some '}' | some '#' => return ()
  | some '\n' | some ';' => drop 1
  | some _ =>
    drop 1
    refuse "extra characters after command"

/-! Texts with escapes. -/

def codeOf (base most : Nat) (t : Text) : Option (Char × Text) :=
  let value (c : Char) : Option Nat :=
    let n := if c.isDigit then c.toNat - '0'.toNat else if c.isAlpha then c.toLower.toNat - 'a'.toNat + 10 else 99
    if n < base then some n else none
  let digits := (t.take most).takeWhile fun c => (value c).isSome
  if digits = [] then none
  else some (Char.ofNat ((digits.foldl (fun n c => n * base + (value c).getD 0) 0) % 256), t.drop digits.length)

def escape? : Text → Option (Char × Text)
  | 'a' :: rest => some ('\x07', rest)
  | 'f' :: rest => some ('\x0c', rest)
  | 'n' :: rest => some ('\n', rest)
  | 'r' :: rest => some ('\r', rest)
  | 't' :: rest => some ('\t', rest)
  | 'v' :: rest => some ('\x0b', rest)
  | 'c' :: c :: rest => some (Char.ofNat (c.toUpper.toNat ^^^ 64), rest)
  | 'd' :: rest => codeOf 10 3 rest
  | 'o' :: rest => codeOf 8 3 rest
  | 'x' :: rest => codeOf 16 2 rest
  | _ => none

/-! Between delimiters. -/

def bracketRest (fuel : Nat) (t : Text) (isFirst : Bool) : Option (Text × Text) :=
  match fuel, t with
  | 0, _ | _, [] => none
  | fuel + 1, '[' :: c :: rest =>
    if c = ':' ∨ c = '.' ∨ c = '=' then
      let inside := rest.takeWhile fun d => d ≠ c ∧ d ≠ ']' ∧ d ≠ '\n'
      match rest.drop inside.length with
      | d :: ']' :: after =>
        if d = c then (bracketRest fuel after false).map fun (a, b) => ('[' :: c :: inside ++ [d, ']'] ++ a, b)
        else (bracketRest fuel (c :: rest) false).map fun (a, b) => ('[' :: a, b)
      | _ => (bracketRest fuel (c :: rest) false).map fun (a, b) => ('[' :: a, b)
    else (bracketRest fuel (c :: rest) false).map fun (a, b) => ('[' :: a, b)
  | _, '\n' :: _ => none
  | fuel + 1, c :: rest =>
    if c = ']' ∧ !isFirst then some ([c], rest)
    else
      let first := isFirst && c == '^'
      (bracketRest fuel rest first).map fun (a, b) => (c :: a, b)

/-- Up to a delimiter. A backslash before the delimiter goes away; in expressions, brackets hide it. None
where the line ends first; what was read is then gone. -/
def delimited (isRegex : Bool) (delimiter : Char) : Nat → Text → Option (Text × Text)
  | 0, _ | _, [] => none
  | fuel + 1, c :: rest =>
    let go (head t : Text) : Option (Text × Text) := (delimited isRegex delimiter fuel t).map fun (a, b) => (head ++ a, b)
    if c = delimiter then some ([], rest)
    else if c = '\\' then
      match rest with
      | [] => none
      | d :: more =>
        if d = delimiter then
          if !isRegex ∧ d = '&' then go ['\\', '&'] more else go [d] more
        else if d = '\n' then if isRegex then go ['\n'] more else go ['\\', '\n'] more
        else go ['\\', d] more
    else if c = '\n' then none
    else if isRegex ∧ c = '[' then
      match bracketRest (rest.length + 1) rest true with
      | some (inside, after) => go ('[' :: inside) after
      | none => none
    else go [c] rest

def readDelimited (isRegex : Bool) (delimiter : Char) (refusal : Text) : ReadM Text := do
  let r ← get
  match delimited isRegex delimiter (r.rest.length + 1) r.rest with
  | some (t, rest) =>
    set { r with rest := rest }
    return t
  | none =>
    set { r with rest := r.rest.dropWhile (· ≠ '\n') }
    refuse refusal

/-! Expressions. -/

def expressionChars (inBracket : Bool) : Nat → Text → List PatternChar
  | 0, _ | _, [] => []
  | fuel + 1, '\\' :: rest =>
    match escape? rest with
    | some (c, after) => ⟨c, !inBracket⟩ :: expressionChars inBracket fuel after
    | none =>
      match rest with
      | c :: after =>
        if inBracket then ⟨'\\', false⟩ :: expressionChars inBracket fuel rest
        else ⟨'\\', false⟩ :: ⟨c, false⟩ :: expressionChars inBracket fuel after
      | [] => [⟨'\\', false⟩]
  | fuel + 1, '[' :: rest =>
    if inBracket then ⟨'[', false⟩ :: expressionChars true fuel rest
    else
      match bracketRest (rest.length + 1) rest true with
      | some (inside, after) =>
        ⟨'[', false⟩ :: expressionChars true fuel inside ++ expressionChars false fuel after
      | none => ⟨'[', false⟩ :: expressionChars false fuel rest
  | fuel + 1, c :: rest => ⟨c, false⟩ :: expressionChars inBracket fuel rest

def grammar (extended : Bool) : Regex.Grammar :=
  { extended := extended, refusesOrphans := true, refusesDoubles := !extended, looseClosing := false
    checksClasses := true }

/-- An expression by its text, and the number of its groups. An empty one stands for the last that was
used. -/
def search (t : Text) (foldsCase byLines : Bool) : ReadM (Wanted × Nat) := do
  if t = [] then return (none, 9)
  else
    match Regex.parse (grammar (← get).extended) (expressionChars false (t.length + 1) t) with
    | .ok c => return (some ⟨c.regex, foldsCase, byLines⟩, c.groups)
    | .error .classAlone => throw (Shell.RegexError.classAlone.message, 4)
    | .error e => refuse e.message

/-! Addresses. -/

def addressFlags : Nat → Bool → Bool → ReadM (Bool × Bool)
  | 0, i, m => return (i, m)
  | fuel + 1, i, m => do
    skipBlanks
    match ← peek with
    | some 'I' =>
      drop 1
      addressFlags fuel true m
    | some 'M' =>
      drop 1
      addressFlags fuel i true
    | _ => return (i, m)

def addressRegex (delimiter : Char) : ReadM Wanted := do
  let t ← readDelimited true delimiter "unterminated address regex"
  let (i, m) ← addressFlags (← get).rest.length.succ false false
  return (← search t i m).1

def address? : ReadM (Option RangeEnd) := do
  match ← peek with
  | some '/' =>
    drop 1
    return some (.found (← addressRegex '/'))
  | some '\\' =>
    drop 1
    match ← take with
    | some d => return some (.found (← addressRegex d))
    | none => refuse "unterminated address regex"
  | some '$' =>
    drop 1
    return some .last
  | some '+' =>
    drop 1
    skipBlanks
    return some (.later (← number))
  | some '~' =>
    drop 1
    skipBlanks
    return some (.multiple (← number))
  | some c =>
    if c.isDigit then
      let n ← number
      skipBlanks
      if (← peek) = some '~' then
        drop 1
        skipBlanks
        let step ← number
        return some (if step = 0 then .line n else .every n step)
      else return some (.line n)
    else return none
  | none => return none

def selection : ReadM Selection := do
  match ← address? with
  | none => return {}
  | some a =>
    let first : Address ←
      match a with
      | .line n => pure (.line n)
      | .every f s => pure (.every f s)
      | .last => pure .last
      | .found w => pure (.found w)
      | .later _ | .multiple _ => refuse "invalid usage of +N or ~N as first address"
    skipBlanks
    let stop ←
      if (← peek) = some ',' then
        drop 1
        skipBlanks
        match ← address? with
        | some b => pure (some b)
        | none =>
          let _ ← take
          refuse "unexpected \x60,'"
      else pure none
    skipBlanks
    match first, stop with
    | .line 0, some (.found _) => pure ()
    | .line 0, _ =>
      let _ ← take
      refuse "invalid usage of line address 0"
    | _, _ => pure ()
    return { first := some first, stop := stop }

/-! Commands. -/

def replacementParts : Nat → Text → List Part
  | 0, _ | _, [] => []
  | fuel + 1, '&' :: rest => .group 0 :: replacementParts fuel rest
  | fuel + 1, '\\' :: rest =>
    match rest with
    | 'U' :: more => .recase .allUpper :: replacementParts fuel more
    | 'L' :: more => .recase .allLower :: replacementParts fuel more
    | 'E' :: more => .recase .asIs :: replacementParts fuel more
    | 'u' :: more => .recase .nextUpper :: replacementParts fuel more
    | 'l' :: more => .recase .nextLower :: replacementParts fuel more
    | c :: more =>
      if c.isDigit then .group (c.toNat - '0'.toNat) :: replacementParts fuel more
      else
        match escape? (c :: more) with
        | some (d, after) => .text [d] :: replacementParts fuel after
        | none => .text [c] :: replacementParts fuel more
    | [] => [.text ['\\']]
  | fuel + 1, c :: rest => .text [c] :: replacementParts fuel rest

structure SubstitutionFlags where
  isGlobal : Bool := false
  shows : Bool := false
  nth : Option Nat := none
  foldsCase : Bool := false
  byLines : Bool := false
  file : Option Text := none

def fileName : ReadM Text := do
  skipBlanks
  let t ← restOfLine
  if t = [] then refuse "missing filename in r/R/w/W commands" else return t

def substitutionFlags : Nat → SubstitutionFlags → ReadM SubstitutionFlags
  | 0, f => return f
  | fuel + 1, f => do
    match ← peek with
    | none => return f
    | some '}' | some '#' => return f
    | some c =>
      drop 1
      if c = '\n' ∨ c = ';' then return f
      else if c = ' ' ∨ c = '\t' ∨ c = '\r' then substitutionFlags fuel f
      else if c = 'i' ∨ c = 'I' then substitutionFlags fuel { f with foldsCase := true }
      else if c = 'm' ∨ c = 'M' then substitutionFlags fuel { f with byLines := true }
      else if c = 'e' then substitutionFlags fuel f
      else if c = 'p' then
        if f.shows then refuse "multiple \x60p' options to \x60s' command"
        else substitutionFlags fuel { f with shows := true }
      else if c = 'g' then
        if f.isGlobal then refuse "multiple \x60g' options to \x60s' command"
        else substitutionFlags fuel { f with isGlobal := true }
      else if c = 'w' then return { f with file := some (← fileName) }
      else if c.isDigit then
        if f.nth.isSome then refuse "multiple number options to \x60s' command"
        modify fun r => { r with rest := c :: r.rest }
        let n ← number
        if n = 0 then refuse "number option to \x60s' command may not be zero"
        substitutionFlags fuel { f with nth := some n }
      else refuse "unknown option to \x60s'"

def substitution : ReadM Action := do
  match ← take with
  | none => refuse "unterminated \x60s' command"
  | some d =>
    if d = '\n' ∨ d = '\\' then refuse "unterminated \x60s' command"
    let t ← readDelimited true d "unterminated \x60s' command"
    let r ← readDelimited false d "unterminated \x60s' command"
    let f ← substitutionFlags ((← get).rest.length + 1) {}
    let (wanted, groups) ← search t f.foldsCase f.byLines
    let parts := replacementParts (r.length + 1) r
    match parts.find? fun | .group n => groups < n | _ => false with
    | some (.group n) => refuse ("invalid reference \\" ++ Text.ofNat n ++ " on \x60s' command's RHS")
    | _ => pure ()
    return .substitute
      { wanted := wanted, parts := parts, isGlobal := f.isGlobal, shows := f.shows, nth := f.nth.getD 1, file := f.file }

def tableChars : Nat → Text → Text
  | 0, _ | _, [] => []
  | fuel + 1, '\\' :: '\\' :: rest => '\\' :: tableChars fuel rest
  | fuel + 1, '\\' :: '\n' :: rest => '\n' :: tableChars fuel rest
  | fuel + 1, '\\' :: rest =>
    match escape? rest with
    | some (c, after) => c :: tableChars fuel after
    | none => '\\' :: tableChars fuel rest
  | fuel + 1, c :: rest => c :: tableChars fuel rest

def translation : ReadM Action := do
  match ← take with
  | none => refuse "unterminated \x60y' command"
  | some d =>
    let a ← readDelimited false d "unterminated \x60y' command"
    let b ← readDelimited false d "unterminated \x60y' command"
    let source := tableChars (a.length + 1) a
    let target := tableChars (b.length + 1) b
    if source.length ≠ target.length then refuse "strings for \x60y' command are different lengths"
    endOfCommand
    return .translate (source.zip target)

/-- Texts of several lines, each but the last with a backslash at its end. None if the part of the script
ends inside. -/
def textLines : Nat → Text → Text × Text
  | 0, t => ([], t)
  | _, [] => (['\n'], [])
  | _, '\n' :: rest => (['\n'], rest)
  | fuel + 1, '\\' :: rest =>
    match rest with
    | [] => (['\n'], [])
    | '\n' :: more =>
      let (a, b) := textLines fuel more
      ('\n' :: a, b)
    | c :: more =>
      let (d, after) := (escape? (c :: more)).getD (c, more)
      let (a, b) := textLines fuel after
      (d :: a, b)
  | fuel + 1, c :: rest =>
    let (a, b) := textLines fuel rest
    (c :: a, b)

def readText (make : Text → Action) (s : Selection) : ReadM Unit := do
  let push (a : Action) : ReadM Unit := modify fun r => { r with steps := r.steps.push ⟨s, a⟩ }
  let lines : ReadM Unit := do
    let r ← get
    let (t, rest) := textLines (r.rest.length + 1) r.rest
    set { r with rest := rest }
    push (make t)
  skipBlanks
  match (← get).rest with
  | [] | '\n' :: _ => refuse "expected \\ after \x60a', \x60c' or \x60i'"
  | '\\' :: rest =>
    let blanks := rest.takeWhile isBlank
    match rest.drop blanks.length with
    | '\n' :: after =>
      modify fun r => { r with rest := after }
      if after = [] then modify fun r => { r with pending := some make, pendingSelection := s } else lines
    | [] =>
      modify fun r => { r with rest := [], pending := some make, pendingSelection := s }
    | _ =>
      modify fun r => { r with rest := rest }
      match rest with
      | '\\' :: _ => lines
      | c :: more =>
        -- The first character stands for itself.
        modify fun r => { r with rest := more }
        let r ← get
        let (t, rest) := textLines (r.rest.length + 1) r.rest
        set { r with rest := rest }
        push (make (c :: t))
      | [] => pure ()
  | _ => lines

def labelText (isTarget : Bool) : ReadM Text := do
  skipBlanks
  let r ← get
  let t := r.rest.takeWhile fun c => c ≠ '\n' && c ≠ ';' && !isBlank c && (isTarget || c ≠ '}')
  set { r with rest := r.rest.drop t.length }
  return t

def command (s : Selection) : ReadM Unit := do
  let push (a : Action) : ReadM Unit := modify fun r => { r with steps := r.steps.push ⟨s, a⟩ }
  let plain (a : Action) : ReadM Unit := do
    endOfCommand
    push a
  let once : ReadM Unit := do if s.stop.isSome then refuse "command only uses one address"
  let optionalNumber : ReadM (Option Nat) := do
    skipBlanks
    match ← peek with
    | some c => if c.isDigit then return some (← number) else return none
    | none => return none
  match ← take with
  | none => refuse "missing command"
  | some c =>
    match c with
    | '{' => modify fun r => { r with open_ := (r.steps.size, r.origin) :: r.open_, steps := r.steps.push ⟨s, .enter 0⟩ }
    | '}' =>
      let r ← get
      match r.open_ with
      | [] => refuse "unexpected \x60\x7d'"
      | (start, _) :: outer =>
        if s.first.isSome then refuse "\x7d doesn't want any addresses"
        endOfCommand
        modify fun r =>
          { r with
            open_ := outer
            steps := (r.steps.modify start fun step => { step with action := .enter (r.steps.size + 1) }).push ⟨{}, .close⟩ }
    | ':' =>
      if s.first.isSome then refuse ": doesn't want any addresses"
      let name ← labelText true
      if name = [] then refuse "\":\" lacks a label"
      modify fun r => { r with labels := (name, r.steps.size) :: r.labels, steps := r.steps.push ⟨{}, .label⟩ }
    | 'a' => readText .append s
    | 'i' => readText .insert s
    | 'c' => readText .change s
    | 'b' | 't' | 'T' =>
      let name ← labelText false
      let j : Jump := if c = 'b' then .always else if c = 't' then .ifReplaced else .unlessReplaced
      modify fun r => { r with jumps := name :: r.jumps }
      endOfCommand
      push (.jump j name)
    | 'q' =>
      once
      let n ← optionalNumber
      plain (.quit (n.getD 0))
    | 'Q' =>
      once
      let n ← optionalNumber
      plain (.quitSilently (n.getD 0))
    | 'l' =>
      let n ← optionalNumber
      plain (.list n)
    | 'd' => plain .delete
    | 'D' => plain .deleteFirst
    | 'F' => plain .showName
    | 'g' => plain .recall
    | 'G' => plain .recallMore
    | 'h' => plain .remember
    | 'H' => plain .rememberMore
    | 'x' => plain .swap
    | 'n' => plain .next
    | 'N' => plain .nextMore
    | 'p' => plain .print
    | 'P' => plain .printFirst
    | '=' => plain .printNumber
    | 'z' => plain .clear
    | 'r' => do push (.insertFile (← fileName))
    | 'R' => do push (.insertLine (← fileName))
    | 'w' => do push (.write (← fileName))
    | 'W' => do push (.writeFirst (← fileName))
    | 's' => do push (← substitution)
    | 'y' => do push (← translation)
    | c => refuse ("unknown command: \x60" ++ [c] ++ "'")

def commands : Nat → ReadM Unit
  | 0 => return ()
  | fuel + 1 => do
    modify fun r => { r with rest := r.rest.dropWhile fun c => c = ';' || c.isWhitespace }
    match ← peek with
    | none => return ()
    | some _ =>
      let s ← selection
      skipBlanks
      let inverted ←
        if (← peek) = some '!' then
          drop 1
          skipBlanks
          if (← peek) = some '!' then
            drop 1
            refuse "multiple \x60!'s"
          pure true
        else pure false
      let s := { s with inverted := inverted }
      if (← peek) = some '#' then
        drop 1
        if s.first.isSome then refuse "comments don't accept any addresses"
        let r ← get
        let t ← restOfLine
        if r.isFirst ∧ r.steps.isEmpty ∧ t = ['n'] then
          match r.origin with
          | .argument _ => if r.total = r.rest.length + 1 then modify fun r => { r with silent := true }
          | .file _ => modify fun r => { r with silent := true }
      else command s
      commands fuel

def part (origin : Origin) (t : Text) : ReadM Unit := do
  let total := match origin with | .argument _ => t.length | .file _ => (t.filter (· == '\n')).length + 1
  modify fun r => { r with origin := origin, rest := t, total := total }
  let r ← get
  match r.pending with
  | some make =>
    let (text, rest) := textLines (t.length + 1) t
    set { r with rest := rest, pending := none, steps := r.steps.push ⟨r.pendingSelection, make text⟩ }
  | none => pure ()
  commands (t.length + 1)
  modify fun r => { r with isFirst := false }

end ReadM

def readScript (extended : Bool) (parts : List (Origin × Text)) : Except (Text × Nat) Script := do
  let all : ReadM Unit := parts.forM fun (origin, t) => ReadM.part origin t
  let ((), r) ← all.run { origin := .argument 1, rest := [], total := 0, extended := extended }
  match r.open_.getLast? with
  | some (_, .argument n) => throw ("-e expression #" ++ Text.ofNat n ++ ", char 0: unmatched \x60\x7b'", 1)
  | some (_, origin) => throw (ReadM.placeText origin 0 0 ++ "unmatched \x60\x7b'", 1)
  | none => pure ()
  match r.jumps.reverse.find? fun name => name ≠ [] ∧ !(r.labels.any (·.1 = name)) with
  | some name => throw ("can't find label for jump to \x60" ++ name ++ "'", 4)
  | none => pure ()
  let steps := match r.pending with
    | some make => r.steps.push ⟨r.pendingSelection, make []⟩
    | none => r.steps
  return { steps := steps, labels := r.labels, silent := r.silent }

end Runbook.Program.Editor
