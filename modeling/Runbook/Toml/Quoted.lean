import Runbook.Text.Basic

/-!
The four kinds of quoted text: with and without escapes, on one line or on several.
-/
namespace Runbook.Toml

def isGap (c : Char) : Bool := c == ' ' || c == '\t'

def skipGap (t : Text) : Text := t.dropWhile isGap

def afterNewline : Text → Option Text
  | '\n' :: rest => some rest
  | '\r' :: '\n' :: rest => some rest
  | _ => none

def isPlain (c : Char) : Bool := c == '\t' || (0x20 ≤ c.toNat && c.toNat ≠ 0x7F)

def escapedChar : Char → Option Char
  | 'b' => some '\x08'
  | 't' => some '\t'
  | 'n' => some '\n'
  | 'f' => some '\x0c'
  | 'r' => some '\r'
  | '"' => some '"'
  | '\\' => some '\\'
  | _ => none

def hexValue (c : Char) : Option Nat :=
  if c.isDigit then some (c.toNat - '0'.toNat)
  else if 'a' ≤ c ∧ c ≤ 'f' then some (c.toNat - 'a'.toNat + 10)
  else if 'A' ≤ c ∧ c ≤ 'F' then some (c.toNat - 'A'.toNat + 10)
  else none

def hexChar (digits : Text) : Option Char := do
  let n ← digits.foldlM (fun n c => (hexValue c).map (n * 16 + ·)) 0
  if n < 0xD800 ∨ (0xDFFF < n ∧ n < 0x110000) then some (Char.ofNat n) else none

def readBasic : Text → Option (Text × Text)
  | [] => none
  | '"' :: rest => some ([], rest)
  | '\\' :: 'u' :: a :: b :: c :: d :: rest => do
    let x ← hexChar [a, b, c, d]
    let (t, after) ← readBasic rest
    return (x :: t, after)
  | '\\' :: 'U' :: a :: b :: c :: d :: e :: f :: g :: h :: rest => do
    let x ← hexChar [a, b, c, d, e, f, g, h]
    let (t, after) ← readBasic rest
    return (x :: t, after)
  | '\\' :: c :: rest => do
    let x ← escapedChar c
    let (t, after) ← readBasic rest
    return (x :: t, after)
  | c :: rest =>
    if isPlain c ∧ c ≠ '\\' then do
      let (t, after) ← readBasic rest
      return (c :: t, after)
    else none

def readLiteral (t : Text) : Option (Text × Text) :=
  match t.dropWhile fun c => isPlain c && c ≠ '\'' with
  | '\'' :: after => some (t.takeWhile fun c => isPlain c && c ≠ '\'', after)
  | _ => none

/-- At a run of three or more quotes a text of several lines ends: up to two of them belong to the
text. Gives these and what follows the closing three. -/
def closeQuotes (quote : Char) (t : Text) : Option (Text × Text) :=
  let run := t.takeWhile (· == quote)
  if run.length < 3 then none
  else
    let own := min (run.length - 3) 2
    some (List.replicate own quote, t.drop (own + 3))

def joinsLines (afterBackslash : Text) : Bool := (afterNewline (skipGap afterBackslash)).isSome

/-- The text of several lines up to three double quotes, and what follows. `joining` tells that
blanks and line ends are being skipped. -/
def readMultiBasic (joining : Bool) : Text → Option (Text × Text)
  | [] => none
  | '\r' :: '\n' :: rest =>
    if joining then readMultiBasic true rest
    else (readMultiBasic false rest).map fun (t, after) => ('\n' :: t, after)
  | '\n' :: rest =>
    if joining then readMultiBasic true rest
    else (readMultiBasic false rest).map fun (t, after) => ('\n' :: t, after)
  | '"' :: rest =>
    match closeQuotes '"' ('"' :: rest) with
    | some found => some found
    | none => (readMultiBasic false rest).map fun (t, after) => ('"' :: t, after)
  | '\\' :: rest =>
    if joinsLines rest then readMultiBasic true rest
    else
      match rest with
      | 'u' :: a :: b :: c :: d :: more => do
        let x ← hexChar [a, b, c, d]
        let (t, after) ← readMultiBasic false more
        return (x :: t, after)
      | 'U' :: a :: b :: c :: d :: e :: f :: g :: h :: more => do
        let x ← hexChar [a, b, c, d, e, f, g, h]
        let (t, after) ← readMultiBasic false more
        return (x :: t, after)
      | c :: more => do
        let x ← escapedChar c
        let (t, after) ← readMultiBasic false more
        return (x :: t, after)
      | [] => none
  | c :: rest =>
    if joining && isGap c then readMultiBasic true rest
    else if isPlain c then (readMultiBasic false rest).map fun (t, after) => (c :: t, after)
    else none

def readMultiLiteral : Text → Option (Text × Text)
  | [] => none
  | '\r' :: '\n' :: rest => (readMultiLiteral rest).map fun (t, after) => ('\n' :: t, after)
  | '\'' :: rest =>
    match closeQuotes '\'' ('\'' :: rest) with
    | some found => some found
    | none => (readMultiLiteral rest).map fun (t, after) => ('\'' :: t, after)
  | c :: rest =>
    if isPlain c ∨ c = '\n' then (readMultiLiteral rest).map fun (t, after) => (c :: t, after)
    else none

def dropFirstNewline (t : Text) : Text := (afterNewline t).getD t

def readQuoted (t : Text) : Option (Text × Text) :=
  match t with
  | '"' :: '"' :: '"' :: rest => readMultiBasic false (dropFirstNewline rest)
  | '\'' :: '\'' :: '\'' :: rest => readMultiLiteral (dropFirstNewline rest)
  | '"' :: rest => readBasic rest
  | '\'' :: rest => readLiteral rest
  | _ => none

end Runbook.Toml
