import Runbook.Program.Lines
import Runbook.Shell.Format

/-!
Programs on numbers: sequences, expressions, and bytes written as numbers.
-/
namespace Runbook.Program
open Kernel

variable (l : Launch)

/-! Sequences. -/

/-- A decimal number: its value times a power of ten, and the places behind its point. -/
structure Decimal where
  scaled : Int
  places : Nat

namespace Decimal

def rescale (places : Nat) (d : Decimal) : Int := d.scaled * (Nat.pow 10 (places - d.places) : Nat)

def parse? (t : Text) : Option Decimal :=
  let t := t.dropWhile isSpaceChar
  let (negative, body) := Text.cutSign t
  let sign (n : Nat) : Int := if negative then -(n : Int) else n
  match body with
  | '0' :: x :: rest =>
    if x = 'x' ∨ x = 'X' then
      if rest ≠ [] ∧ rest.all Shell.isHexDigit then some ⟨sign (Shell.valueOf 16 rest), 0⟩ else none
    else decimal sign body
  | _ => decimal sign body
where
  decimal (sign : Nat → Int) (body : Text) : Option Decimal :=
    let whole := body.takeWhile Char.isDigit
    let rest := body.drop whole.length
    let (part, rest) : Text × Text :=
      match rest with
      | '.' :: more => (more.takeWhile Char.isDigit, more.dropWhile Char.isDigit)
      | _ => ([], rest)
    if whole = [] ∧ part = [] then none
    else
      let digits := Shell.valueOf 10 (whole ++ part)
      match rest with
      | [] => some ⟨sign digits, part.length⟩
      | e :: more =>
        if e = 'e' ∨ e = 'E' then
          match more with
          | '-' :: ds => (natural? ds).bind fun n => if n < 400 then some ⟨sign digits, part.length + n⟩ else none
          | ds =>
            let ds := if ds.head? = some '+' then ds.drop 1 else ds
            (natural? ds).bind fun n =>
              if 400 < n then none
              else if n ≤ part.length then some ⟨sign digits, part.length - n⟩
              else some ⟨sign (digits * Nat.pow 10 (n - part.length)), 0⟩
        else none

def text (places : Nat) (n : Int) : Text :=
  let digits := Text.ofNat n.natAbs
  let digits := List.replicate (places + 1 - digits.length) '0' ++ digits
  let whole := digits.take (digits.length - places)
  (if n < 0 then ['-'] else []) ++ whole ++ (if places = 0 then [] else '.' :: digits.drop (digits.length - places))

end Decimal

structure NumberFormat where
  before : Text
  directive : Shell.Format.Directive
  letter : Char
  after : Text

def upToDirective : Text → Text × Text
  | [] => ([], [])
  | '%' :: '%' :: rest =>
    let (t, r) := upToDirective rest
    ('%' :: t, r)
  | '%' :: rest => ([], '%' :: rest)
  | c :: rest =>
    let (t, r) := upToDirective rest
    (c :: t, r)

def parseFormat (t : Text) : Except Text NumberFormat := do
  let (before, rest) := upToDirective t
  match rest with
  | [] => throw ("format " ++ quoted t ++ " has no % directive")
  | _ :: spec =>
    let (d, spec) := Shell.Format.flagsOf {} spec
    let (d, spec, _, _) := Shell.Format.widthOf d spec []
    let (d, spec, _, _) := Shell.Format.precisionOf d spec []
    match spec with
    | [] => throw ("format " ++ quoted t ++ " ends in %")
    | c :: rest =>
      if c ∉ ("efgaEFGA".toList) then
        throw ("format " ++ quoted t ++ " has unknown %" ++ [c] ++ " directive")
      let (after, left) := upToDirective rest
      if left ≠ [] then throw ("format " ++ quoted t ++ " has too many % directives")
      return ⟨before, d, c, after⟩

def NumberFormat.write (f : NumberFormat) (places : Nat) (n : Int) : Text :=
  f.before ++ Shell.Format.fractionText f.directive f.letter (.finite (n < 0) n.natAbs (Nat.pow 10 places)) ++ f.after

def sequenceFrom (write_ : Int → Text) (separator : Text) (step last : Int) :
    Nat → Int → Bool → Proc Unit
  | 0, _, _ => return ()
  | fuel + 1, n, isFirst => do
    let within (k : Int) : Bool := if 0 ≤ step then k ≤ last else last ≤ k
    if !within n then emit l (if isFirst then [] else ['\n'])
    else
      let block := (List.range 500).map (fun (k : Nat) => n + step * k) |>.takeWhile within
      let body := separator.intercalate (block.map write_)
      emit l ((if isFirst then [] else separator) ++ body)
      sequenceFrom write_ separator step last fuel (n + step * block.length) false

def shieldNumbers : List Text → List Text
  | [] => []
  | t :: rest =>
    match t with
    | '-' :: c :: _ =>
      if c.isDigit ∨ c = '.' then "--" :: t :: rest
      else if t = "-s" ∨ t = "-f" then
        match rest with
        | v :: more => t :: v :: shieldNumbers more
        | [] => [t]
      else t :: shieldNumbers rest
    | _ => "--" :: t :: rest

def seq : Proc Unit := do
  let g ← leadingOptions { l with args := shieldNumbers l.args } (.of "f:s:w" "format:=f separator:=s equal-width=w")
  if g.operands = [] then misuse l "missing operand"
  if 3 < g.operands.length then misuse l ("extra operand " ++ cited (g.operands.getD 3 []))
  let mut numbers : List Decimal := []
  for t in g.operands do
    match Decimal.parse? t with
    | some d => numbers := numbers ++ [d]
    | none =>
      if t = "inf" ∨ t = "infinity" then numbers := numbers ++ [⟨Nat.pow 10 30, 0⟩]
      else misuse l ("invalid floating point argument: " ++ cited t)
  let one : Decimal := ⟨1, 0⟩
  let (first, step, last) : Decimal × Decimal × Decimal :=
    match numbers with
    | [c] => (one, one, c)
    | [a, c] => (a, one, c)
    | a :: b :: c :: _ => (a, b, c)
    | [] => (one, one, one)
  if step.scaled = 0 then misuse l ("invalid Zero increment value: " ++ cited (g.operands.getD 1 []))
  let format ←
    match g.last? "f" with
    | none => pure none
    | some t =>
      match parseFormat t with
      | .ok f => pure (some f)
      | .error e => fail l e
  if format.isSome ∧ g.has "w" then
    misuse l "format string may not be specified when printing equal width strings"
  let places := max first.places (max step.places last.places)
  let shownPlaces := max first.places step.places
  let plain (n : Int) : Text :=
    Decimal.text shownPlaces (n / (Nat.pow 10 (places - shownPlaces) : Nat))
  let width := max (plain (first.rescale places)).length (plain (last.rescale places)).length
  let write_ (n : Int) : Text :=
    match format with
    | some f => f.write places n
    | none =>
      let t := plain n
      if g.has "w" then
        match t with
        | '-' :: ds => '-' :: List.replicate (width - t.length) '0' ++ ds
        | ds => List.replicate (width - t.length) '0' ++ ds
      else t
  let separator := (g.last? "s").getD ['\n']
  sequenceFrom l write_ separator (step.rescale places) (last.rescale places) loopLimit (first.rescale places) true
  done true

/-! Expressions. -/

inductive ExprError where
  | missingAfter (t : Text)
  | unexpected (t : Text)
  | unclosed (t : Text)
  | notInteger
  | division
  | expression (t : Text)

def ExprError.message : ExprError → Text
  | missingAfter t => "syntax error: missing argument after " ++ cited t
  | unexpected t => "syntax error: unexpected argument " ++ cited t
  | unclosed t => "syntax error: expecting ')' after " ++ cited t
  | notInteger => "non-integer argument"
  | division => "division by zero"
  | expression t => t

abbrev ExprM := ExceptT ExprError (StateM (List Text × Text))

namespace Expr

def integer? (t : Text) : Option Int :=
  match t with
  | '-' :: ds => (natural? ds).map fun n => -(n : Int)
  | ds => (natural? ds).map fun n => (n : Int)

def peek : ExprM (Option Text) := do return (← get).1.head?

def take : ExprM Text := do
  match ← get with
  | (t :: rest, _) =>
    set (rest, t)
    return t
  | ([], last) => throw (.missingAfter last)

def isNull (t : Text) : Bool := t = [] || ((integer? t) = some 0)

def matchStart (t pattern : Text) : ExprM Text := do
  match Shell.Regex.ofText { extended := false } pattern with
  | .error e => throw (.expression e.message)
  | .ok ⟨e, groups, _⟩ =>
    let s : Shell.Regex.Subject := { text := t.toArray }
    match e.matchAt s 0 with
    | some (stop, gs) =>
      if groups = 0 then return Text.ofNat stop
      else return ((gs.lookup 1).map fun (a, b) => s.slice a b).getD []
    | none => return if groups = 0 then ['0'] else []

def numbers (a b : Text) : ExprM (Int × Int) :=
  match integer? a, integer? b with
  | some m, some n => return (m, n)
  | _, _ => throw .notInteger

def indexOf (t set_ : Text) : Nat :=
  match t.findIdx? (· ∈ set_) with
  | some i => i + 1
  | none => 0

def word (inner : ExprM Text) : ExprM Text := do
  let t ← take
  match String.ofList t with
  | "(" =>
    let v ← inner
    match (← get).1 with
    | [')'] :: rest =>
      set (rest, [')'])
      return v
    | w :: _ => throw (.unexpected w)
    | [] => throw (.unclosed (← get).2)
  | ")" => throw (.unexpected t)
  | "+" => take
  | _ => return t

def primary (inner : ExprM Text) : Nat → ExprM Text
  | 0 => return []
  | fuel + 1 => do
    match (← peek).map String.ofList with
    | some "length" => do
      let _ ← take
      return Text.ofNat (← primary inner fuel).length
    | some "match" => do
      let _ ← take
      let t ← primary inner fuel
      let p ← primary inner fuel
      matchStart t p
    | some "index" => do
      let _ ← take
      let t ← primary inner fuel
      let cs ← primary inner fuel
      return Text.ofNat (indexOf t cs)
    | some "substr" => do
      let _ ← take
      let t ← primary inner fuel
      let a ← primary inner fuel
      let b ← primary inner fuel
      match integer? a, integer? b with
      | some i, some n => if 0 < i ∧ 0 < n then return (t.drop (i.toNat - 1)).take n.toNat else return []
      | _, _ => return []
    | _ => word inner

def chain (operand : ExprM Text) (names : List Text) (apply : Text → Text → Text → ExprM Text) :
    Nat → Text → ExprM Text
  | 0, v => return v
  | fuel + 1, v => do
    match ← peek with
    | some op =>
      if op ∈ names then do
        let _ ← take
        let w ← operand
        chain operand names apply fuel (← apply op v w)
      else return v
    | none => return v

def level (operand : ExprM Text) (names : List Text) (apply : Text → Text → Text → ExprM Text) : ExprM Text := do
  let v ← operand
  chain operand names apply ((← get).1.length + 1) v

def comparison (op a b : Text) : ExprM Text := do
  let o : Ordering :=
    match integer? a, integer? b with
    | some m, some n => compare m n
    | _, _ => if a = b then .eq else if Text.le a b then .lt else .gt
  let holds : Bool :=
    match String.ofList op with
    | "<" => o == .lt
    | "<=" => o != .gt
    | "=" | "==" => o == .eq
    | "!=" => o != .eq
    | ">=" => o != .lt
    | _ => o == .gt
  return if holds then ['1'] else ['0']

def arithmetic (op a b : Text) : ExprM Text := do
  let (m, n) ← numbers a b
  match String.ofList op with
  | "+" => return Text.ofInt (m + n)
  | "-" => return Text.ofInt (m - n)
  | "*" => return Text.ofInt (m * n)
  | "/" => if n = 0 then throw .division else return Text.ofInt (m.tdiv n)
  | _ => if n = 0 then throw .division else return Text.ofInt (m.tmod n)

/-- A whole expression; `fuel` is more than the number of words. -/
def expression : Nat → ExprM Text
  | 0 => return []
  | fuel + 1 => do
    let inner := expression fuel
    let size := (← get).1.length + 1
    let matches_ := level (primary inner size) [[':']] fun _ a b => matchStart a b
    let products := level matches_ [['*'], ['/'], ['%']] arithmetic
    let sums := level products [['+'], ['-']] arithmetic
    let comparisons := level sums ["<", "<=", "=", "==", "!=", ">=", ">"] comparison
    let both := level comparisons [['&']] fun _ a b => return if isNull a ∨ isNull b then ['0'] else a
    level both [['|']] fun _ a b => return if !isNull a then a else if !isNull b then b else ['0']

end Expr

def expr : Proc Unit := do
  let args := if l.args.head? = some "--" then l.args.drop 1 else l.args
  if args = [] then misuse l "missing operand" 2
  let (r, rest, _) := ((Expr.expression (args.length + 1)).run.run (args, [])) |> fun (r, s) => (r, s.1, s.2)
  match r with
  | .error e => fail l e.message 2
  | .ok v =>
    match rest with
    | w :: _ => fail l (ExprError.message (.unexpected w)) 2
    | [] =>
      emit l (v ++ ['\n']) 3
      Proc.exit (if Expr.isNull v then 1 else 0)

/-! Bytes as numbers. -/

/-- One way to write bytes: a letter, how many bytes go together, and whether the characters follow. -/
structure DumpType where
  letter : Char
  size : Nat
  showsText : Bool := false

def DumpType.width (d : DumpType) : Nat :=
  match d.letter with
  | 'x' => 2 * d.size
  | 'o' => if d.size = 1 then 3 else if d.size = 2 then 6 else if d.size = 4 then 11 else 22
  | 'd' => if d.size = 1 then 4 else if d.size = 2 then 6 else if d.size = 4 then 11 else 20
  | 'u' => if d.size = 1 then 3 else if d.size = 2 then 5 else if d.size = 4 then 10 else 20
  | _ => 3

def controlNames : List Text :=
  List.splitOn ' '
    ("nul soh stx etx eot enq ack bel bs ht nl vt ff cr so si dle dc1 dc2 dc3 dc4 nak syn etb can em sub esc " ++
      "fs gs rs us sp")

def DumpType.write (d : DumpType) (bytes : Text) : Text :=
  let n := (bytes.reverse).foldl (fun n c => n * 256 + c.toNat) 0
  let zeros (width : Nat) (t : Text) : Text := List.replicate (width - t.length) '0' ++ t
  match d.letter with
  | 'x' => zeros (2 * d.size) (Nat.toDigits 16 n)
  | 'o' => zeros d.width (Nat.toDigits 8 n)
  | 'u' => Text.ofNat n
  | 'd' =>
    let half := Nat.pow 2 (8 * d.size - 1)
    Text.ofInt (if n < half then n else (n : Int) - 2 * half)
  | 'a' =>
    let k := n % 128
    if k = 127 then "del" else if k ≤ 32 then controlNames.getD k [] else [Char.ofNat k]
  | _ =>
    match n with
    | 0 => "\\0"
    | 7 => "\\a"
    | 8 => "\\b"
    | 9 => "\\t"
    | 10 => "\\n"
    | 11 => "\\v"
    | 12 => "\\f"
    | 13 => "\\r"
    | n => if 32 ≤ n ∧ n < 127 then [Char.ofNat n] else zeros 3 (Nat.toDigits 8 n)

def groupsOf (size : Nat) : Nat → Text → List Text
  | 0, _ => []
  | _, [] => []
  | fuel + 1, t =>
    let part := t.take size
    (part ++ List.replicate (size - part.length) '\x00') :: groupsOf size fuel (t.drop size)

/-- One line of one type. `total` is how wide all values of a whole block stand. -/
def DumpType.line (d : DumpType) (blockSize total : Nat) (bytes : Text) : Text :=
  let fields := blockSize / d.size
  let pad := total - fields * (d.width + 1)
  let values := groupsOf d.size (bytes.length + 1) bytes
  -- What is left over is spread over the values from the left.
  let one (i : Nat) (v : Text) : Text :=
    let before := pad * (fields - i) / fields
    let after := pad * (fields - i - 1) / fields
    padLeft (d.width + 1 + (before - after)) (d.write v)
  let body := (values.zipIdx.map fun (v, i) => one i v).flatten
  if d.showsText then
    let shown := bytes.map fun c => if Shell.isPrintable c then c else '.'
    padRight total body ++ "  >" ++ shown ++ "<"
  else body

def dumpTypes : Nat → Text → Text → Except Text (List DumpType)
  | 0, _, _ => .ok []
  | _, _, [] => .ok []
  | fuel + 1, whole, c :: rest =>
    if c ∈ ("acdoux".toList) then
      let usual := if c = 'a' ∨ c = 'c' then 1 else 4
      let digits := rest.takeWhile Char.isDigit
      let after := rest.drop digits.length
      let (size, after) : Nat × Text :=
        if c = 'a' ∨ c = 'c' then (1, rest)
        else if digits ≠ [] then (Shell.valueOf 10 digits, after)
        else
          match after with
          | 'C' :: more => (1, more)
          | 'S' :: more => (2, more)
          | 'I' :: more => (4, more)
          | 'L' :: more => (8, more)
          | more => (usual, more)
      if size ∉ [1, 2, 4, 8] then
        .error ("invalid type string " ++ cited whole ++ ";\nthis system doesn't provide a " ++ Text.ofNat size ++
          "-byte integral type")
      else
        let (isShown, after) : Bool × Text :=
          match after with
          | 'z' :: more => (true, more)
          | more => (false, more)
        (dumpTypes fuel whole after).map (⟨c, size, isShown⟩ :: ·)
    else .error ("invalid character '" ++ [c] ++ "' in type string " ++ cited whole)

def addressText (base : Char) (n : Nat) : Text :=
  let zeros (width : Nat) (t : Text) : Text := List.replicate (width - t.length) '0' ++ t
  match base with
  | 'n' => []
  | 'x' => zeros 6 (Nat.toDigits 16 n)
  | 'd' => zeros 7 (Text.ofNat n)
  | _ => zeros 7 (Nat.toDigits 8 n)

/-- The lines for all blocks; blocks that repeat the one before are left out unless `showsAll`. -/
def dumpBlocks (block : Nat → Text → Text) (size : Nat) (showsAll : Bool) :
    Nat → Nat → Option Text → Bool → Text → List Text
  | 0, _, _, _, _ => []
  | _, _, _, _, [] => []
  | fuel + 1, at_, last, isStarred, t =>
    let part := t.take size
    let rest := t.drop size
    if !showsAll ∧ last = some part ∧ part.length = size then
      (if isStarred then [] else ["*\n".toList]) ++ dumpBlocks block size showsAll fuel (at_ + size) last true rest
    else block at_ part :: dumpBlocks block size showsAll fuel (at_ + size) (some part) false rest

def od : Proc Unit := do
  let g ← options l (.of "A:abcdfiIj:lN:oOsS:t:vw::xhHeDX"
    "address-radix:=A skip-bytes:=j read-bytes:=N format:=t output-duplicates=v width::=w strings::=S traditional")
  let short : List (Text × Text) :=
    [(['a'], "a"), (['b'], "o1"), (['c'], "c"), (['d'], "u2"), (['i'], "dI"), (['l'], "dL"), (['o'], "o2"),
      (['s'], "d2"), (['x'], "x2"), (['I'], "dL"), (['h'], "x2"), (['H'], "x4"), (['X'], "x4"), (['D'], "u4"),
      (['O'], "o4")]
  let mut types : List DumpType := []
  for (k, v) in g.options do
    let text := if k = ['t'] then some v else short.lookup k
    match text with
    | none => pure ()
    | some t =>
      match dumpTypes (t.length + 1) t t with
      | .ok ds => types := types ++ ds
      | .error e => fail l e
  let used := if types.isEmpty then [⟨'o', 2, false⟩] else types
  let base := ((g.last? "A").bind (·.head?)).getD 'o'
  if base ∉ ("doxn".toList) then
    fail l ("invalid output address radix '" ++ [base] ++ "'; it must be one character from [doxn]")
  let size := ((g.last? "w").map fun t => if t = [] then 32 else (sized? t).getD 16).getD 16
  let mut ok := true
  let mut all : Text := []
  for path in g.inputs do
    match ← readOperand path with
    | .ok t => all := all ++ t
    | .error f =>
      say l (refused path f)
      ok := false
  let skipped := ((g.last? "j").bind sized?).getD 0
  if all.length < skipped then fail l "cannot skip past end of combined input"
  let body := all.drop skipped
  let body := ((g.last? "N").bind sized?).elim body body.take
  let total := (used.map fun d => size / d.size * (d.width + 1)).foldl max 0
  let block (at_ : Nat) (part : Text) : Text :=
    (used.zipIdx.map fun (d, i) =>
      let lead := addressText base (skipped + at_)
      (if i = 0 then lead else List.replicate lead.length ' ') ++ d.line size total part ++ ['\n']).flatten
  emit l (dumpBlocks block size (g.has "v") (body.length + 1) 0 none false body).flatten
  if base ≠ 'n' ∧ ok then emit l (addressText base (skipped + body.length) ++ ['\n'])
  done ok

end Runbook.Program
