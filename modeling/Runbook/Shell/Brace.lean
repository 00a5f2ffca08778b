import Runbook.Shell.Piece

/-!
Braces in words: lists with commas and sequences, each giving several words. What is quoted or will be
replaced later is passed over.
-/
namespace Runbook.Shell

variable (d : Dialect)
namespace Brace

def isBlankAt (c : Option Char) : Bool :=
  match c with
  | none => true
  | some c => c == ' ' || c == '\t' || c == '\n'

/-- Looks for a character outside of quotes and inner braces. A closing brace counts only behind a
comma or two dots. Gives what stands before it and what follows. -/
def gobble (wanted : Char) :
    Nat → Nat → Nat → Option Char → Text → Text → Option (Text × Text)
  | 0, _, _, _, _, _ => none
  | _, _, _, _, _, [] => none
  | fuel + 1, level, commas, quote, before, c :: rest =>
    let go (level commas : Nat) (quote : Option Char) (taken : Text) (rest : Text) : Option (Text × Text) :=
      gobble wanted fuel level commas quote (taken.reverse ++ before) rest
    match c, rest with
    | '\\', e :: more => if quote = some '\'' then go level commas quote ['\\'] rest else go level commas quote ['\\', e] more
    | '$', '{' :: more =>
      if quote = some '\'' then go level commas quote ['$'] rest
      else go (if quote = none then level + 1 else level) commas quote ['$', '{'] more
    | '$', '(' :: more =>
      if quote = some '\'' then go level commas quote ['$'] rest
      else
        match Piece.commandEnd d more with
        | some (body, after) => go level commas quote ("$(" ++ body ++ ")") after
        | none => go level commas quote ['$', '('] more
    | _, _ =>
      match quote with
      | some q => go level commas (if c = q then none else quote) [c] rest
      | none =>
        if c = '"' ∨ c = '\'' ∨ c = '\x60' then go level commas (some c) [c] rest
        else if c = wanted ∧ level = 0 ∧ 0 < commas then
          let alone := c = '{' && isBlankAt before.head? && (isBlankAt rest.head? || rest.head? = some '}')
          if alone && rest ≠ [] then go level commas none [c] rest else some (before.reverse, rest)
        else
          let level' := if c = '{' then level + 1 else if c = '}' then level - 1 else level
          let hasDots : Bool :=
            match c, rest with
            | '.', '.' :: e :: _ => e ≠ wanted
            | _, _ => false
          let counts := wanted = '}' ∧ level' = 0 ∧ (c = ',' ∨ hasDots)
          go level' (if counts then commas + 1 else commas) none [c] rest

def find (wanted : Char) (t : Text) : Option (Text × Text) :=
  gobble d wanted (t.length + 1) 0 (if wanted = '}' then 0 else 1) none [] t

def firstBrace : Nat → Text → Text → Option (Text × Text × Text)
  | 0, _, _ => none
  | fuel + 1, before, t =>
    match find d '{' t with
    | none => none
    | some (head, rest) =>
      match find d '}' rest with
      | some (inside, after) => some (before ++ head, inside, after)
      | none => firstBrace fuel (before ++ head ++ ['{']) rest

/-! Sequences. -/

def integer? (t : Text) : Option Int :=
  let digits (t : Text) : Option Int :=
    if t ≠ [] ∧ t.all Char.isDigit then some (valueOf 10 t) else none
  match t with
  | '-' :: rest => (digits rest).map fun n => -n
  | '+' :: rest => digits rest
  | _ => digits t

def zeroPadded (width : Nat) (n : Int) : Text :=
  let digits := Text.ofNat n.natAbs
  let sign : Text := if n < 0 then ['-'] else []
  sign ++ List.replicate (width - sign.length - digits.length) '0' ++ digits

def numbers (stop step : Int) : Nat → Int → List Int
  | 0, _ => []
  | fuel + 1, n =>
    let next := n + step
    if (step < 0 ∧ next < stop) ∨ (0 < step ∧ stop < next) then [n] else n :: numbers stop step fuel next

def isPadded (t : Text) : Bool :=
  match t with
  | '0' :: _ :: _ => true
  | '-' :: '0' :: _ :: _ => true
  | _ => false

def dotted (t : Text) : List Text :=
  match Text.cut ".." t with
  | some (a, rest) =>
    match Text.cut ".." rest with
    | some (b, c) => [a, b, c]
    | none => [a, rest]
  | none => [t]

def sequence? (t : Text) : Option (List Text) :=
  let parts := dotted t
  let ends? : Option (Text × Text × Int) :=
    match parts with
    | [a, b] => some (a, b, 1)
    | [a, b, c] => (integer? c).map fun n => (a, b, n)
    | _ => none
  ends?.bind fun (a, b, step) =>
    let run (lo hi : Int) (say : Int → Text) : List Text :=
      let step := if step = 0 then 1 else step
      let step := if (hi < lo ∧ 0 < step) ∨ (lo < hi ∧ step < 0) then -step else step
      (numbers hi step ((hi - lo).natAbs / step.natAbs + 1) lo).map say
    match integer? a, integer? b with
    | some lo, some hi =>
      let width := if isPadded a ∨ isPadded b then max a.length b.length else 0
      some (run lo hi fun n => if width = 0 then Text.ofInt n else zeroPadded width n)
    | _, _ =>
      match a, b with
      | [x], [y] =>
        if x.isAlpha ∧ y.isAlpha then
          some (run x.toNat y.toNat fun n => if n = 96 then ['\\', '\x60'] else if n = 92 then "''" else [Char.ofNat n.toNat])
        else none
      | _, _ => none

def parts : Nat → Text → List Text
  | 0, t => [t]
  | fuel + 1, t =>
    match find d ',' t with
    | some (a, rest) => a :: parts fuel rest
    | none => [t]

def hasComma (t : Text) : Bool := (find d ',' t).isSome

def product (as bs : List Text) : List Text := as.flatMap fun a => bs.map fun b => a ++ b

def expandWithin : Nat → Text → List Text
  | 0, t => [t]
  | fuel + 1, t =>
    match firstBrace d (t.length + 1) [] t with
    | none => [t]
    | some (before, inside, after) =>
      let middle : Option (List Text) :=
        if hasComma d inside then
          some ((parts d (inside.length + 1) inside).flatMap (expandWithin fuel))
        else
          match sequence? inside with
          | some words => some words
          | none => if after = [] then none else some ['{' :: inside ++ ['}']]
      match middle with
      | none => [t]
      | some words =>
        let tails := if after = [] then [[]] else expandWithin fuel after
        product (words.map (before ++ ·)) tails

def expand (t : Text) : List Text :=
  if '{' ∈ t then expandWithin d (t.length + 1) t else [t]

end Brace
end Runbook.Shell
