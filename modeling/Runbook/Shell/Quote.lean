import Runbook.Text.Utf8

/-!
Ways to write a text so that the shell reads it back as it is, and the escapes of one of them.
-/
namespace Runbook.Shell

def singleQuote (t : Text) : Text :=
  if t = ['\''] then "\\'"
  else '\'' :: t.flatMap (fun c => if c = '\'' then "'\\''" else [c]) ++ ['\'']

def isPrintable (c : Char) : Bool := ' ' ≤ c && c ≤ '~'

def octalDigit (n : Nat) : Char := Char.ofNat ('0'.toNat + n % 8)

def octalEscape (c : Char) : Text :=
  ['\\', octalDigit (c.toNat / 64), octalDigit (c.toNat / 8), octalDigit c.toNat]

def escapeChar (c : Char) : Text :=
  match c.toNat with
  | 27 => "\\E"
  | 7 => "\\a"
  | 11 => "\\v"
  | 8 => "\\b"
  | 12 => "\\f"
  | 10 => "\\n"
  | 13 => "\\r"
  | 9 => "\\t"
  | 92 => "\\\\"
  | 39 => "\\'"
  | _ => if isPrintable c then [c] else octalEscape c

def escapedQuote (t : Text) : Text := '$' :: '\'' :: t.flatMap escapeChar ++ ['\'']

def needsEscapes (t : Text) : Bool := t.any fun c => !isPrintable c

def isSpecial (c : Char) : Bool := c ∈ (" \t\n'\"\\|&;()<>!\x7b\x7d*[]?^$`" : Text)

def needsQuotes (t : Text) : Bool :=
  t.any isSpecial || t.head? = some '#' || t.head? = some '~' ||
    (t.zip (t.drop 1)).any fun (a, b) => b = '~' ∧ (a = ':' ∨ a = '=')

def backslashQuote (t : Text) : Text :=
  if t = [] then "''"
  else
    let mark (previous : Option Char) (c : Char) : Text :=
      if c = '\n' then "'\n'"
      else if isSpecial c ∨ c = ',' then ['\\', c]
      else if c = '#' ∧ previous = none then ['\\', c]
      else if c = '~' ∧ (previous = none ∨ previous = some ':' ∨ previous = some '=') then ['\\', c]
      else [c]
    (List.zipWith mark (none :: t.map some) t).flatten

def doubleQuote (t : Text) : Text :=
  '"' :: t.flatMap (fun c => if c ∈ ("$`\"\\" : Text) then ['\\', c] else [c]) ++ ['"']

def assignedQuote (t : Text) : Text := if needsEscapes t then escapedQuote t else doubleQuote t

def tracedQuote (t : Text) : Text :=
  if t = [] then "''"
  else if needsEscapes t then escapedQuote t
  else if needsQuotes t then singleQuote t
  else t

/-! Escapes. -/

def isHexDigit (c : Char) : Bool := c.isDigit || ('a' ≤ c && c ≤ 'f') || ('A' ≤ c && c ≤ 'F')

def isOctalDigit (c : Char) : Bool := '0' ≤ c && c ≤ '7'

def digitValue (c : Char) : Nat :=
  if c.isDigit then c.toNat - '0'.toNat
  else if 'a' ≤ c && c ≤ 'z' then c.toNat - 'a'.toNat + 10
  else if 'A' ≤ c && c ≤ 'Z' then c.toNat - 'A'.toNat + 10
  else 0

def valueOf (base : Nat) (digits : Text) : Nat := digits.foldl (fun n c => n * base + digitValue c) 0

/-- Up to `count` leading characters with a property, and what follows. -/
def takeUpTo (p : Char → Bool) (count : Nat) (t : Text) : Text × Text :=
  let got := (t.take count).takeWhile p
  (got, t.drop got.length)

def byteChar (n : Nat) : Char := Char.ofNat (n % 256)

def pointText (letter : Char) (n : Nat) : Text :=
  if n < 128 then [Char.ofNat n]
  else
    let width := if letter = 'u' then 4 else 8
    let digits := (Nat.toDigits 16 n).map Char.toUpper
    '\\' :: letter :: List.replicate (width - digits.length) '0' ++ digits

def simpleEscape (c : Char) : Option Char :=
  match c with
  | 'a' => some '\x07'
  | 'b' => some '\x08'
  | 'e' | 'E' => some '\x1b'
  | 'f' => some '\x0c'
  | 'n' => some '\n'
  | 'r' => some '\r'
  | 't' => some '\t'
  | 'v' => some '\x0b'
  | '\\' => some '\\'
  | _ => none

def decodeEscapes : Nat → Text → Text
  | 0, t => t
  | _, [] => []
  | fuel + 1, '\\' :: c :: rest =>
    match simpleEscape c with
    | some e => e :: decodeEscapes fuel rest
    | none =>
      if c = '\'' ∨ c = '"' ∨ c = '?' then c :: decodeEscapes fuel rest
      else if isOctalDigit c then
        let (ds, after) := takeUpTo isOctalDigit 3 (c :: rest)
        byteChar (valueOf 8 ds) :: decodeEscapes fuel after
      else if c = 'x' then
        let (ds, after) := takeUpTo isHexDigit 2 rest
        if ds = [] then '\\' :: 'x' :: decodeEscapes fuel rest
        else byteChar (valueOf 16 ds) :: decodeEscapes fuel after
      else if c = 'u' ∨ c = 'U' then
        let (ds, after) := takeUpTo isHexDigit (if c = 'u' then 4 else 8) rest
        if ds = [] then '\\' :: c :: decodeEscapes fuel rest
        else pointText c (valueOf 16 ds) ++ decodeEscapes fuel after
      else if c = 'c' then
        match rest with
        | '\\' :: '\\' :: after => byteChar 28 :: decodeEscapes fuel after
        | d :: after => byteChar (d.toUpper.toNat % 32) :: decodeEscapes fuel after
        | [] => ['\\', 'c']
      else '\\' :: c :: decodeEscapes fuel rest
  | fuel + 1, c :: rest => c :: decodeEscapes fuel rest

def decodeEscaped (t : Text) : Text := (decodeEscapes (t.length + 1) t).takeWhile (· ≠ '\x00')

end Runbook.Shell
