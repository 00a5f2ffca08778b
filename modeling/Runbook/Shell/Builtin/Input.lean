import Runbook.Shell.Builtin.Usage
import Runbook.Shell.FileTest

/-!
The commands that read lines into variables, and the options of a script.
-/
namespace Runbook.Shell
open ShellM Kernel State

namespace Builtin

/-! Reading a line. -/

/-- A character that was read; one behind a backslash never divides. -/
structure ReadChar where
  char : Char
  isPlain : Bool

structure LineReading where
  fd : Nat
  stop : Char
  isRaw : Bool
  limit : Option Nat
  ignoresStop : Bool
  wait : Option Nat

inductive LineEnd where
  | found
  | ended
  | late
  | failed (f : Fault)

def nextPart (r : LineReading) (count : Nat) : ShellM (Except Fault (Option Text)) := do
  match r.wait with
  | some millis => lift (Proc.awaitWithin millis fun pid => Sys.readThrough pid r.fd r.stop count)
  | none =>
    let got ← lift (Proc.readThrough r.fd r.stop count)
    return got.map some

def partLimit : Nat := 1000000

/-- Reads a line. `found` holds what was read, the last first; `waits` tells that a backslash came
last. -/
def readFrom (r : LineReading) : Nat → Bool → List ReadChar → ShellM (List ReadChar × LineEnd)
  | 0, _, found => return (found, .ended)
  | fuel + 1, waits, found => do
    let left := r.limit.map (· - found.length)
    if left = some 0 then return (found, .found)
    else
      match ← nextPart r (left.getD 65536) with
      | .error f => return (found, .failed f)
      | .ok none => return (found, .late)
      | .ok (some []) => return (found, .ended)
      | .ok (some t) =>
        let (found, waits, isDone) := t.foldl step (found, waits, false)
        if isDone then return (found, .found) else readFrom r fuel waits found
where
  step : List ReadChar × Bool × Bool → Char → List ReadChar × Bool × Bool
    | (found, true, done), c =>
      if c = '\n' then (found, false, done) else (⟨c, false⟩ :: found, false, done)
    | (found, false, done), c =>
      if done then (found, false, true)
      else if c = '\\' ∧ !r.isRaw then (found, true, false)
      else if c = r.stop ∧ !r.ignoresStop then (found, false, true)
      else if c = '\x00' then (found, false, false)
      else (⟨c, true⟩ :: found, false, false)

/-! Words of a line. -/

def divides (dividers : Text) (c : ReadChar) : Bool := c.isPlain && c.char ∈ dividers

def dividesBlank (dividers : Text) (c : ReadChar) : Bool :=
  divides dividers c && Glyph.isBlankDivider c.char

def firstWord (dividers : Text) (t : List ReadChar) : List ReadChar × List ReadChar :=
  let t := t.dropWhile (dividesBlank dividers)
  let word := t.takeWhile fun c => !divides dividers c
  let rest := t.drop word.length
  let hadBlank := rest.head?.any (dividesBlank dividers)
  let rest := if hadBlank then rest.dropWhile (dividesBlank dividers) else rest
  let rest :=
    if rest.head?.any (divides dividers) then (rest.drop 1).dropWhile (dividesBlank dividers) else rest
  (word, rest)

def textOf (t : List ReadChar) : Text := t.map (·.char)

def lastWords (dividers : Text) (t : List ReadChar) : Text :=
  let t := t.dropWhile (dividesBlank dividers)
  let (word, rest) := firstWord dividers t
  if rest = [] then textOf word else textOf ((t.reverse.dropWhile (dividesBlank dividers)).reverse)

def storeIn (cmd name t : Text) : ShellM Bool := do
  let base := name.takeWhile (· ≠ '[')
  if !isIdentifier base ∨ (base ≠ name ∧ name.getLast? ≠ some ']') then
    complain cmd ("\x60" ++ name ++ "': not a valid identifier")
    return false
  else
    let result ←
      if base = name then assign name t
      else
        match ← placeOf base ((name.drop (base.length + 1)).dropLast) with
        | .ok p => assignTo p false t
        | .error r => pure (.error r)
    match result with
    | .ok () => return true
    | .error r =>
      report r.message
      return false

def storeWords (dividers : Text) : List Text → List ReadChar → ShellM Bool
  | [], _ => return true
  | [name], t => storeIn "read" name (lastWords dividers t)
  | name :: rest, t => do
    let (word, after) := firstWord dividers t
    if ← storeIn "read" name (textOf word) then storeWords dividers rest after else return false

def wordsOf (dividers : Text) (t : List ReadChar) : List Text :=
  let glyphs := t.map fun c => Glyph.char c.char (if c.isPlain then .value else .quoted)
  (Glyph.split dividers glyphs).map Glyph.text

def millisOf? (t : Text) : Option Nat :=
  let (whole, part) := (Text.cutAt (· == '.') t).getD (t, [])
  if t = [] ∨ !(whole ++ part).all Char.isDigit ∨ whole ++ part = [] then none
  else
    let fraction := (part ++ "000").take 3
    some (State.decimal whole * 1000 + State.decimal fraction)

def naturalOf? (t : Text) : Option Nat := (FileTest.integer? t).bind fun n => if n < 0 then none else some n.toNat

def read : Run := fun _ args =>
  withOptions "read" { plain := "ers", valued := "adinNptu" } args fun os operands => do
    let s ← get
    let refuse (t : Text) : ShellM Unit := do
      complain "read" t
      setStatus 1
    let counted := (value? os 'N').or (value? os 'n')
    let waits := value? os 't'
    let channel := value? os 'u'
    if waits.any fun t => (millisOf? t).isNone then refuse ((waits.getD []) ++ ": invalid timeout specification")
    else if counted.any fun t => (naturalOf? t).isNone then refuse ((counted.getD []) ++ ": invalid number")
    else if channel.any fun t => (naturalOf? t).isNone then
      refuse ((channel.getD []) ++ ": invalid file descriptor specification")
    else
      let fd := ((channel.bind naturalOf?).getD 0)
      let isOpen ← call fun pid => Sys.descriptor pid fd
      match isOpen, channel with
      | .error f, some t => refuse (t ++ ": invalid file descriptor: " ++ f.message)
      | _, _ =>
        let firstName := operands.headD []
        let base := firstName.takeWhile (· ≠ '[')
        if operands ≠ [] ∧ !(isIdentifier base ∧ (base = firstName ∨ firstName.getLast? = some ']')) then
          refuse ("\x60" ++ firstName ++ "': not a valid identifier")
        else if (waits.bind millisOf?) = some 0 then
          let r ← call fun pid => do
            match (← Sys.fileOf pid fd).2.backing with
            | .reading p | .writing p => do
              let w ← get
              return (w.pipes.lookup p).any (fun q => q.held ≠ []) || Sys.ends w (.writing p) = 0
            | _ => return true
          setStatus (if r.toOption.getD false then 0 else 1)
        else
          let stop : Char := ((value? os 'd').map fun t => t.headD '\x00').getD '\n'
          let reading : LineReading :=
            { fd := fd
              stop := stop
              isRaw := has os 'r'
              limit := counted.bind naturalOf?
              ignoresStop := has os 'N'
              wait := (waits.bind millisOf?) }
          let (found, ending) ← readFrom reading partLimit false []
          let line := found.reverse
          let stored ←
            match value? os 'a' with
            | some name =>
              if !isIdentifier name then
                complain "read" ("\x60" ++ name ++ "': not a valid identifier")
                pure false
              else
                match (← get).setValue ((← get).follow name) (.indexed (Elements.ofList (wordsOf s.dividers line))) with
                | .ok s =>
                  set s
                  pure true
                | .error r =>
                  report r.message
                  pure false
            | none =>
              if operands = [] then storeIn "read" "REPLY" (textOf line)
              else if has os 'N' then
                let ok ← storeIn "read" firstName (textOf line)
                for name in operands.drop 1 do
                  let _ ← storeIn "read" name []
                pure ok
              else storeWords s.dividers operands line
          match ending with
          | .failed f =>
            complain "read" ("read error: " ++ Text.ofNat fd ++ ": " ++ f.message)
            setStatus 1
          | .late => setStatus 142
          | .ended => setStatus 1
          | .found => setStatus (if stored then 0 else 1)

/-! Reading many lines. -/

def linesFrom (r : LineReading) (keepsStop : Bool) : Nat → Option Nat → List Text → ShellM (List Text)
  | 0, _, found => return found.reverse
  | fuel + 1, left, found => do
    if left = some 0 then return found.reverse
    else
      let (t, ending) ← readFrom r partLimit false []
      let line := textOf t.reverse
      match ending with
      | .found => linesFrom r keepsStop fuel (left.map (· - 1)) ((if keepsStop then line ++ [r.stop] else line) :: found)
      | _ => return (if t = [] then found else line :: found).reverse

def storeLines (e : Engine) (name : Text) (callback : Option Text) (quantum : Nat) :
    Nat → Nat → List Text → ShellM Unit
  | _, _, [] => return ()
  | i, count, t :: rest => do
    match callback with
    | some text =>
      if (count + 1) % quantum = 0 then
        e.runText { line := (← get).line } (text ++ ' ' :: Text.ofNat i ++ ' ' :: tracedQuote t)
    | none => pure ()
    match (← get).setElement name i t with
    | .ok s => set s
    | .error _ => pure ()
    storeLines e name callback quantum (i + 1) (count + 1) rest

def mapfileAs (cmd : Text) : Run := fun e args =>
  withOptions cmd { plain := "t", valued := "dnOsuCc" } args fun os operands => do
    let s ← get
    let refuse (t : Text) : ShellM Unit := do
      complain cmd t
      setStatus 1
    let bad (c : Char) : Bool := (value? os c).any fun t => (naturalOf? t).isNone
    let number (c : Char) : Option Nat := (value? os c).bind naturalOf?
    let shown (c : Char) : Text := (value? os c).getD []
    let name := operands.headD "MAPFILE"
    let target := s.follow name
    if bad 'n' then refuse (shown 'n' ++ ": invalid line count")
    else if bad 's' then refuse (shown 's' ++ ": invalid line count")
    else if bad 'O' then refuse (shown 'O' ++ ": invalid array origin")
    else if bad 'c' ∨ number 'c' = some 0 then refuse (shown 'c' ++ ": invalid callback quantum")
    else if bad 'u' then refuse (shown 'u' ++ ": invalid file descriptor specification")
    else
      let fd := (number 'u').getD 0
      match ← call fun pid => Sys.descriptor pid fd with
      | .error f => refuse (Text.ofNat fd ++ ": invalid file descriptor: " ++ f.message)
      | .ok _ =>
        if !isIdentifier name then refuse ("\x60" ++ name ++ "': not a valid identifier")
        else if ((s.find? target).map (·.attributes.readonly)).getD false then
          report (Refusal.readonly target).message
          setStatus 1
        else if ((s.find? target).map (·.value.isKeyed)).getD false then refuse (name ++ ": not an indexed array")
        else
          let stop : Char := ((value? os 'd').map fun t => t.headD '\x00').getD '\n'
          let reading : LineReading := ⟨fd, stop, true, none, false, none⟩
          let skipped := (number 's').getD 0
          let limit := (number 'n').bind fun n => if n = 0 then none else some (n + skipped)
          let lines ← linesFrom reading (!has os 't') partLimit limit []
          let old := s.heldBy target
          let start : Value := .indexed (if (number 'O').isSome then old.elements else [])
          match (← get).setValue target start with
          | .ok s => set s
          | .error _ => pure ()
          setStatus 0
          storeLines e target (value? os 'C') ((number 'c').getD 5000) ((number 'O').getD 0) 0 (lines.drop skipped)

def mapfile : Run := mapfileAs "mapfile"

def readarray : Run := mapfileAs "readarray"

/-! Options of a script. -/

inductive OptionStep where
  | done (index : Nat)
  | plain (c : Char)
  | valued (c : Char) (value : Text)
  | unknown (c : Char)
  | missing (c : Char)

def nextOption (letters : Text) (args : List Text) (index place : Nat) : OptionStep × Nat × Nat :=
  let arg := args[index - 1]?.getD []
  let isEnd := place = 0 && (arg.head? ≠ some '-' || arg.length < 2)
  if isEnd then (.done index, index, 0)
  else if place = 0 ∧ arg = "--" then (.done (index + 1), index + 1, 0)
  else
    let place := if place = 0 then 1 else place
    match arg[place]? with
    | none => (.done (index + 1), index + 1, 0)
    | some c =>
      let isLast := arg.length ≤ place + 1
      let onward := if isLast then (index + 1, 0) else (index, place + 1)
      match if c = ':' then none else Text.cutAt (· == c) letters with
      | none => (.unknown c, onward)
      | some (_, ':' :: _) =>
        if !isLast then (.valued c (arg.drop (place + 1)), index + 1, 0)
        else
          match args[index]? with
          | some value => (.valued c value, index + 2, 0)
          | none => (.missing c, index + 1, 0)
      | some _ => (.plain c, onward)

def getopts : Run := fun _ args =>
  withOptions "getopts" { plain := [] } args fun _ operands =>
    match operands with
    | letters :: name :: rest => do
      let s ← get
      if !isIdentifier name then
        complain "getopts" ("\x60" ++ name ++ "': not a valid identifier")
        setStatus 1
      else
        let given := if rest = [] then s.arguments else rest
        let index := max 1 (((s.text? "OPTIND").bind naturalOf?).getD 1)
        let isSilent := letters.head? = some ':'
        let letters := if isSilent then letters.drop 1 else letters
        let speaks := !isSilent && (s.text? "OPTERR") ≠ some ['0']
        let (step, index, place) := nextOption letters given index s.optionPlace
        let say (t : Text) : ShellM Unit := do
          if speaks then
            let _ ← write 2 (s.name ++ ": " ++ t ++ ['\n'])
        let forget : ShellM Unit := modify fun s => s.erase "OPTARG"
        let _ ← assign "OPTIND" (Text.ofNat index)
        modify fun s => { s with optionPlace := place }
        setStatus 0
        match step with
        | .done _ =>
          forget
          let _ ← assign name ['?']
          setStatus 1
        | .plain c =>
          forget
          let _ ← assign name [c]
        | .valued c value =>
          let _ ← assign "OPTARG" value
          let _ ← assign name [c]
        | .unknown c =>
          if isSilent then
            let _ ← assign "OPTARG" [c]
          else forget
          say ("illegal option -- " ++ [c])
          let _ ← assign name ['?']
        | .missing c =>
          if isSilent then
            let _ ← assign "OPTARG" [c]
          else forget
          say ("option requires an argument -- " ++ [c])
          let _ ← assign name [if isSilent then ':' else '?']
    | _ => showUsage "getopts"

end Builtin

end Runbook.Shell
