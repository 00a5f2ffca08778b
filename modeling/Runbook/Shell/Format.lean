import Runbook.Fraction
import Runbook.Shell.Quote
import Runbook.TimeFormat

/-!
Output after a format: directives that take arguments, and escapes.
-/
namespace Runbook.Shell

/-! Escapes. -/

def pointEscape (letter : Char) (rest : Text) : Option (Text × Text) :=
  let (ds, after) := takeUpTo isHexDigit (if letter = 'u' then 4 else 8) rest
  if ds = [] then none else some (pointText letter (valueOf 16 ds), after)

def echoEscapes : Nat → Text → Text × Bool
  | 0, t => (t, false)
  | _, [] => ([], false)
  | fuel + 1, '\\' :: c :: rest =>
    let go (t after : Text) : Text × Bool :=
      let (more, ends) := echoEscapes fuel after
      (t ++ more, ends)
    match simpleEscape c with
    | some e => go [e] rest
    | none =>
      match c with
      | 'c' => ([], true)
      | '0' =>
        let (ds, after) := takeUpTo isOctalDigit 3 rest
        go [byteChar (valueOf 8 ds)] after
      | 'x' =>
        let (ds, after) := takeUpTo isHexDigit 2 rest
        if ds = [] then go ['\\', 'x'] rest else go [byteChar (valueOf 16 ds)] after
      | 'u' | 'U' =>
        match pointEscape c rest with
        | some (t, after) => go t after
        | none => go ['\\', c] rest
      | _ => go ['\\', c] rest
  | fuel + 1, c :: rest =>
    let (more, ends) := echoEscapes fuel rest
    (c :: more, ends)

def echoOptions : Bool → Bool → List Text → Bool × Bool × List Text
  | bare, escapes, ('-' :: c :: ls) :: rest =>
    let letters := c :: ls
    if letters.all fun x => x == 'n' || x == 'e' || x == 'E' then
      let last := letters.reverse.find? (· ≠ 'n')
      echoOptions (bare || 'n' ∈ letters) ((last.map (· == 'e')).getD escapes) rest
    else (bare, escapes, ('-' :: c :: ls) :: rest)
  | bare, escapes, args => (bare, escapes, args)

def echoText (alwaysEscapes : Bool) (args : List Text) : Text :=
  let (bare, escapes, args) := echoOptions false alwaysEscapes args
  let joined := [' '].intercalate args
  if escapes then
    let (t, ends) := echoEscapes (joined.length + 1) joined
    if bare || ends then t else t ++ ['\n']
  else if bare then joined
  else joined ++ ['\n']

namespace Format

/-- What a format gives: text, something that is reported and makes the command fail, or something
that is only reported; and a variable that gets the number of bytes so far. -/
inductive Item where
  | text (t : Text)
  | problem (t : Text)
  | warning (t : Text)
  | count (name : Text)

inductive Ending where
  | through
  | stopped
  | failed
deriving DecidableEq

/-- One escape of a format behind its backslash; `inArgument` for the escapes of an argument. -/
def escape (inArgument : Bool) (t : Text) : List Item × Text × Bool :=
  match t with
  | [] => ([.text ['\\']], [], false)
  | c :: rest =>
    match simpleEscape c with
    | some e => ([.text [e]], rest, false)
    | none =>
      if isOctalDigit c then
        let count := if inArgument ∧ c = '0' then 4 else 3
        let (ds, after) := takeUpTo isOctalDigit count t
        ([.text [byteChar (valueOf 8 ds)]], after, false)
      else
        match c with
        | 'x' =>
          let (ds, after) := takeUpTo isHexDigit 2 rest
          if ds = [] then ([.problem "missing hex digit for \\x", .text ['\\', 'x']], rest, false)
          else ([.text [byteChar (valueOf 16 ds)]], after, false)
        | 'u' | 'U' =>
          match pointEscape c rest with
          | some (t, after) => ([.text t], after, false)
          | none => ([.problem ("missing unicode digit for \\" ++ [c]), .text ['\\', c]], rest, false)
        | 'c' => if inArgument then ([], [], true) else ([.text ['\\', 'c']], rest, false)
        | _ =>
          if !inArgument ∧ (c = '"' ∨ c = '\'' ∨ c = '?') then ([.text [c]], rest, false)
          else ([.text ['\\', c]], rest, false)

def argumentEscapes : Nat → Text → Text × List Item × Bool
  | 0, t => (t, [], false)
  | _, [] => ([], [], false)
  | fuel + 1, '\\' :: rest =>
    let (items, after, ends) := escape true rest
    let text := items.flatMap fun | .text t => t | _ => []
    let reports := items.filter fun i => !(i matches .text _)
    if ends then (text, reports, true)
    else
      let (more, others, ends) := argumentEscapes fuel after
      (text ++ more, reports ++ others, ends)
  | fuel + 1, c :: rest =>
    let (more, others, ends) := argumentEscapes fuel rest
    (c :: more, others, ends)

structure Directive where
  left : Bool := false
  zeros : Bool := false
  plus : Bool := false
  blank : Bool := false
  alternate : Bool := false
  width : Nat := 0
  precision : Option Nat := none

variable (d : Directive)

def pad (t : Text) : Text :=
  let missing := d.width - t.length
  if d.left then t ++ List.replicate missing ' ' else List.replicate missing ' ' ++ t

def padNumber (fillsWithZeros : Bool) (mark digits : Text) : Text :=
  if d.zeros ∧ !d.left ∧ fillsWithZeros then
    mark ++ List.replicate (d.width - mark.length - digits.length) '0' ++ digits
  else pad d (mark ++ digits)

def signMark (negative : Bool) : Text :=
  if negative then ['-'] else if d.plus then ['+'] else if d.blank then [' '] else []

def withPrecision (digits : Text) : Text :=
  match d.precision with
  | some p => if p = 0 ∧ digits = ['0'] then [] else List.replicate (p - digits.length) '0' ++ digits
  | none => digits

def signedText (n : Int) : Text :=
  padNumber d d.precision.isNone (signMark d (n < 0)) (withPrecision d (Text.ofNat n.natAbs))

def unsignedText (letter : Char) (n : Nat) : Text :=
  let digits : Text :=
    match letter with
    | 'o' => Nat.toDigits 8 n
    | 'x' => Nat.toDigits 16 n
    | 'X' => (Nat.toDigits 16 n).map Char.toUpper
    | _ => Text.ofNat n
  let digits := withPrecision d digits
  let digits := if letter = 'o' ∧ d.alternate ∧ digits.head? ≠ some '0' then '0' :: digits else digits
  let mark : Text :=
    if d.alternate ∧ n ≠ 0 then (if letter = 'x' then "0x" else if letter = 'X' then "0X" else []) else []
  padNumber d d.precision.isNone mark digits

def fractionText (letter : Char) (x : Fraction) : Text :=
  let isUpper := letter.isUpper
  let low := letter.toLower
  let recase (t : Text) : Text := if isUpper then t.map Char.toUpper else t
  let mark := signMark d x.isNegative
  match x with
  | .infinite _ => pad d (mark ++ recase "inf")
  | .undefined _ => pad d (mark ++ recase "nan")
  | .finite _ num den =>
    let places := d.precision.getD 6
    match low with
    | 'f' => padNumber d true mark (Fraction.fixed places d.alternate num den)
    | 'e' => padNumber d true mark (recase (Fraction.scientific 'e' places d.alternate num den))
    | 'a' =>
      padNumber d true (mark ++ recase "0x") (recase (Fraction.hexadecimal 'p' d.precision num den))
    | _ => padNumber d true mark (recase (Fraction.general 'e' places d.alternate num den))

/-! Numbers in arguments. -/

def wholeNumber (t : Text) : Nat × Text :=
  let take (base : Nat) (p : Char → Bool) (t : Text) : Nat × Text :=
    let ds := t.takeWhile p
    (valueOf base ds, t.drop ds.length)
  match t with
  | '0' :: x :: c :: rest =>
    if (x = 'x' ∨ x = 'X') ∧ isHexDigit c then take 16 isHexDigit (c :: rest)
    else if (x = 'b' ∨ x = 'B') ∧ (c = '0' ∨ c = '1') then take 2 (fun c => c == '0' || c == '1') (c :: rest)
    else take 8 isOctalDigit t
  | '0' :: _ => take 8 isOctalDigit t
  | _ => take 10 Char.isDigit t

def integer (t : Text) : Int × Text :=
  let start := t.dropWhile fun c => c == ' ' || (9 ≤ c.toNat && c.toNat ≤ 13)
  let (negative, ds) := Text.cutSign start
  if ds.head?.any Char.isDigit then
    let (n, rest) := wholeNumber ds
    (if negative then -(n : Int) else n, rest)
  else (0, t)

def badNumber (t : Text) : Item :=
  match t with
  | '0' :: 'x' :: _ => .problem (t ++ ": invalid hex number")
  | '0' :: c :: _ => if c.isDigit then .problem (t ++ ": invalid octal number") else .problem (t ++ ": invalid number")
  | _ => .problem (t ++ ": invalid number")

def outOfRange (t : Text) : Item := .warning ("warning: " ++ t ++ ": Numerical result out of range")

def quotedCode? (t : Text) : Option Nat :=
  match t with
  | '\'' :: rest | '"' :: rest => some ((rest.head?.map Char.toNat).getD 0)
  | _ => none

def integerOf (low high : Int) (t : Text) : Int × List Item :=
  match quotedCode? t with
  | some n => (n, [])
  | none =>
    let (n, rest) := integer t
    let clamped := max low (min high n)
    if rest ≠ [] then (clamped, [badNumber t])
    else if n < low ∨ high < n then (clamped, [outOfRange t])
    else (n, [])

def signedOf (t : Text) : Int × List Item := integerOf (-9223372036854775808) 9223372036854775807 t

def unsignedOf (t : Text) : Nat × List Item :=
  match quotedCode? t with
  | some n => (n, [])
  | none =>
    let (n, rest) := integer t
    let reports := if rest ≠ [] then [badNumber t] else if 18446744073709551615 < n.natAbs then [outOfRange t] else []
    let value : Int := if 18446744073709551615 < n.natAbs then 18446744073709551615 else n % 18446744073709551616
    (value.toNat, reports)

def precision : Nat := 64

def fractionOf (t : Text) : Fraction × List Item :=
  match quotedCode? t with
  | some n => (.finite false n 1, [])
  | none =>
    if t = [] then (.finite false 0 1, [])
    else
      match Fraction.parse precision (t.dropWhile (· == ' ')) with
      | some (x, []) => (x, [])
      | some (x, _) => (x, [badNumber t])
      | none => (.finite false 0 1, [badNumber t])

/-! Formats. -/

structure Times where
  now : Nat
  start : Nat

def flagsOf : Directive → Text → Directive × Text
  | d, '-' :: rest => flagsOf { d with left := true } rest
  | d, '0' :: rest => flagsOf { d with zeros := true } rest
  | d, '+' :: rest => flagsOf { d with plus := true } rest
  | d, ' ' :: rest => flagsOf { d with blank := true } rest
  | d, '#' :: rest => flagsOf { d with alternate := true } rest
  | d, '\'' :: rest => flagsOf d rest
  | d, t => (d, t)

def widthOf (t : Text) (args : List Text) : Directive × Text × List Text × List Item :=
  match t with
  | '*' :: rest =>
    let (n, reports) := signedOf (args.headD [])
    ({ d with width := n.natAbs, left := d.left || n < 0 }, rest, args.drop 1, reports)
  | _ =>
    let ds := t.takeWhile Char.isDigit
    ({ d with width := valueOf 10 ds }, t.drop ds.length, args, [])

def precisionOf (t : Text) (args : List Text) : Directive × Text × List Text × List Item :=
  match t with
  | '.' :: '*' :: rest =>
    let (n, reports) := signedOf (args.headD [])
    ({ d with precision := if n < 0 then none else some n.toNat }, rest, args.drop 1, reports)
  | '.' :: '-' :: rest => (d, rest.dropWhile Char.isDigit, args, [])
  | '.' :: rest =>
    let ds := rest.takeWhile Char.isDigit
    ({ d with precision := some (valueOf 10 ds) }, rest.drop ds.length, args, [])
  | _ => (d, t, args, [])

def wordQuote (t : Text) : Text :=
  if t = [] then "''" else if needsEscapes t then escapedQuote t else backslashQuote t

def convert (times : Times) (d : Directive) (letter : Char) (arg : Option Text) : Option (List Item × Ending) :=
  let t := arg.getD []
  let cutTo (t : Text) : Text := d.precision.elim t t.take
  let plain (t : Text) : Option (List Item × Ending) := some ([.text t], .through)
  let number {α : Type} (show? : α → Text) (r : α × List Item) : Option (List Item × Ending) :=
    some (r.2 ++ [.text (show? r.1)], .through)
  match letter with
  | 's' => plain (pad d (cutTo t))
  | 'c' => plain (pad d (if t = [] then ['\x00'] else t.take 1))
  | 'b' =>
    let (text, reports, ends) := argumentEscapes (t.length + 1) t
    some (reports ++ [.text (pad d (cutTo text))], if ends then .stopped else .through)
  | 'q' => plain (pad d (cutTo (wordQuote t)))
  | 'Q' => plain (pad d (wordQuote (cutTo t)))
  | 'd' | 'i' => number (signedText d) (signedOf t)
  | 'o' | 'u' | 'x' | 'X' => number (unsignedText d letter) (unsignedOf t)
  | 'e' | 'E' | 'f' | 'F' | 'g' | 'G' | 'a' | 'A' => number (fractionText d letter) (fractionOf t)
  | 'n' => some ([.count t], .through)
  | 'T' =>
    -- The caller puts the pattern in front of the argument, behind a zero byte.
    let (pattern, value) := (Text.cutAt (· == '\x00') t).getD ([], t)
    let (n, reports) := if arg.isNone ∨ value = [] then (-1, []) else signedOf value
    let moment : Nat := if n = -1 then times.now else if n = -2 then times.start else n.toNat * 1000
    let pattern : Text := if pattern = [] then "%X" else pattern
    some (reports ++ [.text (pad d (cutTo (TimeFormat.format ⟨moment⟩ pattern)))], .through)
  | _ => none

def timePattern? (t : Text) : Option (Text × Text) :=
  match Text.cutAt (· == ')') t with
  | some (pattern, 'T' :: rest) => some (pattern, rest)
  | _ => none

def pass (times : Times) : Nat → Text → List Text → List Item × List Text × Ending
  | 0, _, args => ([], args, .through)
  | _, [], args => ([], args, .through)
  | fuel + 1, '\\' :: rest, args =>
    let (items, after, _) := escape false rest
    let (more, args, ending) := pass times fuel after args
    (items ++ more, args, ending)
  | fuel + 1, '%' :: '%' :: rest, args =>
    let (more, args, ending) := pass times fuel rest args
    (.text ['%'] :: more, args, ending)
  | fuel + 1, '%' :: rest, args =>
    let (d, t) := flagsOf {} rest
    let (d, t, args, first) := widthOf d t args
    let (d, t, args, second) := precisionOf d t args
    let t := t.dropWhile fun c => c ∈ ("hjlLtz" : Text)
    let before := first ++ second
    let goOn (letter : Char) (arg : Option Text) (after : Text) : List Item × List Text × Ending :=
      match convert times d letter arg with
      | none =>
        (before ++ [.problem ("\x60" ++ letter :: "': invalid format character")], args, .failed)
      | some (items, .through) =>
        let (more, args, ending) := pass times fuel after (args.drop 1)
        (before ++ items ++ more, args, ending)
      | some (items, ending) => (before ++ items, args.drop 1, ending)
    match t with
    | [] => (before ++ [.problem ("\x60%" ++ rest ++ "': missing format character")], args, .failed)
    | '(' :: inside =>
      match timePattern? inside with
      | some (pattern, after) => goOn 'T' (args.head?.map (pattern ++ '\x00' :: ·) |>.or (some (pattern ++ ['\x00']))) after
      | none =>
        let wrong := ((Text.cutAt (· == ')') inside).bind fun (_, r) => r.head?).getD ' '
        let (more, args, ending) := pass times fuel (rest.drop 0) args
        (.warning ("warning: \x60" ++ wrong :: "': invalid time format specification") :: .text ['%'] :: more,
          args, ending)
    | letter :: after => goOn letter args.head? after
  | fuel + 1, c :: rest, args =>
    let (more, args, ending) := pass times fuel rest args
    (.text [c] :: more, args, ending)

def passes (times : Times) (format : Text) : Nat → List Text → List Item × Ending
  | 0, _ => ([], .through)
  | fuel + 1, args =>
    let (items, left, ending) := pass times (format.length + 1) format args
    if ending ≠ .through ∨ left = [] ∨ left.length = args.length then (items, ending)
    else
      let (more, ending) := passes times format fuel left
      (items ++ more, ending)

def run (times : Times) (format : Text) (args : List Text) : List Item :=
  (passes times format (args.length + 1) args).1

end Format

end Runbook.Shell
