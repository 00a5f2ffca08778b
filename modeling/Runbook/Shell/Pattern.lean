import Runbook.Text.Basic

/-!
Patterns with `*`, `?`, brackets and lists of alternatives. Matching keeps all places of the text that a
pattern can have reached.
-/
namespace Runbook.Shell

/-- One element of a bracket: a range of characters or a named class. -/
inductive BracketItem where
  | range (lo hi : Char)
  | named (name : Text)

/-- How often one of the alternatives in a group may stand: as often as the sign says, or anything but
one of them. -/
inductive GroupKind where
  | once
  | optional
  | any
  | some
  | other

inductive PatternItem where
  | exactly (c : Char)
  | anyOne
  | anyMany
  | bracket (negated : Bool) (items : List BracketItem)
  | group (kind : GroupKind) (alternatives : List (List PatternItem))

abbrev Pattern := List PatternItem

structure PatternChar where
  char : Char
  isQuoted : Bool
deriving DecidableEq

def isPunct (c : Char) : Bool := '!' ≤ c && c ≤ '~' && !c.isAlphanum

def isSpaceChar (c : Char) : Bool := c == ' ' || (9 ≤ c.toNat && c.toNat ≤ 13)

def inClass (name : Text) (c : Char) : Bool :=
  match String.ofList name with
  | "alnum" => c.isAlphanum
  | "alpha" => c.isAlpha
  | "digit" => c.isDigit
  | "upper" => c.isUpper
  | "lower" => c.isLower
  | "space" => isSpaceChar c
  | "blank" => c == ' ' || c == '\t'
  | "punct" => isPunct c
  | "print" => ' ' ≤ c && c ≤ '~'
  | "graph" => '!' ≤ c && c ≤ '~'
  | "cntrl" => c.toNat < 32 || c.toNat == 127
  | "xdigit" => c.isDigit || ('a' ≤ c.toLower && c.toLower ≤ 'f')
  | "word" => c.isAlphanum || c == '_'
  | "ascii" => c.toNat < 128
  | _ => false

def namedPart (sign : Char) (cs : List PatternChar) : Option (Text × List PatternChar) :=
  let name := cs.takeWhile fun p => p.char ≠ sign ∧ p.char ≠ ']'
  match cs.drop name.length with
  | a :: ⟨']', _⟩ :: rest => if a.char = sign then some (name.map (·.char), rest) else none
  | _ => none

def bracketChar : List PatternChar → Option (Char × List PatternChar)
  | [] => none
  | ⟨'[', false⟩ :: ⟨'.', false⟩ :: rest =>
    match namedPart '.' rest with
    | some ([c], after) => some (c, after)
    | _ => none
  | ⟨'\\', false⟩ :: p :: rest => some (p.char, rest)
  | p :: rest => some (p.char, rest)

def bracketItems : Nat → Bool → List PatternChar → Option (List BracketItem × List PatternChar)
  | 0, _, _ | _, _, [] => none
  | fuel + 1, isFirst, p :: rest => do
    if p.char = ']' ∧ ¬p.isQuoted ∧ ¬isFirst then return ([], rest)
    else
      let special : Option (BracketItem × List PatternChar) :=
        match p, rest with
        | ⟨'[', false⟩, ⟨':', false⟩ :: more =>
          (namedPart ':' more).map fun (name, after) => (BracketItem.named name, after)
        | ⟨'[', false⟩, ⟨'=', false⟩ :: more =>
          match namedPart '=' more with
          | some ([c], after) => some (.range c c, after)
          | _ => none
        | _, _ => none
      match special with
      | some (item, after) =>
        let (items, after) ← bracketItems fuel false after
        return (item :: items, after)
      | none =>
        let (lo, rest) ← bracketChar (p :: rest)
        let plain : Char × List PatternChar := (lo, rest)
        let (hi, rest) :=
          match rest with
          | ⟨'-', false⟩ :: q :: after =>
            if q.char = ']' ∧ ¬q.isQuoted then plain else (bracketChar (q :: after)).getD plain
          | _ => plain
        let (items, after) ← bracketItems fuel false rest
        return (.range lo hi :: items, after)

def groupKind? : Char → Option GroupKind
  | '@' => some .once
  | '?' => some .optional
  | '*' => some .any
  | '+' => some .some
  | '!' => some .other
  | _ => none

def splitGroup : Nat → List PatternChar → List PatternChar → Option (List (List PatternChar) × List PatternChar)
  | _, _, [] => none
  | depth, part, p :: rest =>
    if p.isQuoted then splitGroup depth (p :: part) rest
    else
      match p.char, depth with
      | ')', 0 => some ([part.reverse], rest)
      | ')', d + 1 => splitGroup d (p :: part) rest
      | '(', _ => splitGroup (depth + 1) (p :: part) rest
      | '|', 0 => (splitGroup 0 [] rest).map fun (parts, after) => (part.reverse :: parts, after)
      | _, _ => splitGroup depth (p :: part) rest

namespace Pattern

/-- Reads a pattern; `lists` tells whether there can be groups. A bracket or group that is not closed
stands for itself. -/
def ofChars (lists : Bool) : Nat → List PatternChar → Pattern
  | 0, _ | _, [] => []
  | fuel + 1, ⟨c, true⟩ :: rest => .exactly c :: ofChars lists fuel rest
  | fuel + 1, ⟨c, false⟩ :: rest =>
    let group : Option (GroupKind × List (List PatternChar) × List PatternChar) :=
      match groupKind? c, rest with
      | some kind, ⟨'(', false⟩ :: inside =>
        if lists then (splitGroup 0 [] inside).map fun (parts, after) => (kind, parts, after) else none
      | _, _ => none
    match group with
    | some (kind, parts, after) => .group kind (parts.map (ofChars lists fuel)) :: ofChars lists fuel after
    | none =>
      match c with
      | '*' => .anyMany :: ofChars lists fuel rest
      | '?' => .anyOne :: ofChars lists fuel rest
      | '\\' =>
        match rest with
        | p :: more => .exactly p.char :: ofChars lists fuel more
        | [] => [.exactly '\\']
      | '[' =>
        let negated := rest.head?.any fun p => !p.isQuoted && (p.char == '!' || p.char == '^')
        match bracketItems (rest.length + 1) true (if negated then rest.drop 1 else rest) with
        | some (items, after) => .bracket negated items :: ofChars lists fuel after
        | none => .exactly '[' :: ofChars lists fuel rest
      | c => .exactly c :: ofChars lists fuel rest

def read (lists : Bool) (cs : List PatternChar) : Pattern := ofChars lists (cs.length + 1) cs

def ofText (lists : Bool) (t : Text) : Pattern := read lists (t.map fun c => ⟨c, false⟩)

def isGlob (p : Pattern) : Bool :=
  p.any fun
    | .exactly _ => false
    | _ => true

structure Matcher where
  foldsCase : Bool := false

variable (m : Matcher)

def sameChar (a b : Char) : Bool :=
  a == b || (m.foldsCase && a.toLower == b.toLower)

def itemMatches (negated : Bool) (items : List BracketItem) (c : Char) : Bool :=
  let holds (c : Char) : Bool := items.any fun
    | .range lo hi => lo ≤ c && c ≤ hi
    | .named name => inClass name c
  negated != (holds c || (m.foldsCase && (holds c.toLower || holds c.toUpper)))

structure Place where
  left : Nat
  rest : Text

def startOf (t : Text) : Place := ⟨t.length, t⟩

def onwardFrom : Nat → Text → List Place
  | left, [] => [⟨left, []⟩]
  | left, c :: rest => ⟨left, c :: rest⟩ :: onwardFrom (left - 1) rest

def onward (p : Place) : List Place := onwardFrom p.left p.rest

def merge : Nat → List Place → List Place → List Place
  | 0, _, qs => qs
  | _, [], qs => qs
  | _, ps, [] => ps
  | fuel + 1, p :: ps, q :: qs =>
    if p.left = q.left then p :: merge fuel ps qs
    else if q.left < p.left then p :: merge fuel ps (q :: qs)
    else q :: merge fuel (p :: ps) qs

def union (ps qs : List Place) : List Place := merge (ps.length + qs.length) ps qs

def stepChar (holds : Char → Bool) (ps : List Place) : List Place :=
  ps.filterMap fun
    | ⟨left, c :: rest⟩ => if holds c then some ⟨left - 1, rest⟩ else none
    | ⟨_, []⟩ => none

def closure (step : List Place → List Place) : Nat → List Place → List Place → List Place
  | 0, all, _ => all
  | fuel + 1, all, fresh =>
    let next := (step fresh).filter fun p => !all.any (·.left = p.left)
    if next.isEmpty then all else closure step fuel (union all next) next

def reach : Nat → Pattern → List Place → List Place
  | 0, _, _ => []
  | _, [], ps => ps
  | fuel + 1, item :: rest, ps =>
    if ps.isEmpty then []
    else
      let alternatives (alts : List Pattern) (ps : List Place) : List Place :=
        alts.foldl (fun found a => union found (reach fuel a ps)) []
      let next :=
        match item with
        | .exactly c => stepChar (sameChar m c) ps
        | .anyOne => stepChar (fun _ => true) ps
        | .bracket negated items => stepChar (itemMatches m negated items) ps
        | .anyMany =>
          match ps with
          | p :: _ => onward p
          | [] => []
        | .group .once alts => alternatives alts ps
        | .group .optional alts => union ps (alternatives alts ps)
        | .group .any alts => closure (alternatives alts) ((ps.head?.map (·.left)).getD 0 + 1) ps ps
        | .group .some alts =>
          let first := alternatives alts ps
          closure (alternatives alts) ((ps.head?.map (·.left)).getD 0 + 1) first first
        | .group .other alts =>
          ps.foldl (fun found p =>
            let hit := alternatives alts [p]
            union found ((onward p).filter fun q => !hit.any (·.left = q.left))) []
      reach fuel rest next

mutual

def size : Pattern → Nat
  | [] => 1
  | .group _ alts :: rest => 1 + sizes alts + size rest
  | _ :: rest => 1 + size rest

def sizes : List Pattern → Nat
  | [] => 1
  | a :: rest => size a + sizes rest

end

def ends (p : Pattern) (t : Text) : List Place := reach m (p.size + 1) p [startOf t]

def isMatch (p : Pattern) (t : Text) : Bool := (p.ends m t).any (·.left = 0)

def afterLongest (p : Pattern) (t : Text) : Option Place := (p.ends m t).getLast?

def tails : Text → List Text
  | [] => [[]]
  | c :: rest => (c :: rest) :: tails rest

def trimStart (p : Pattern) (longest : Bool) (t : Text) : Text :=
  let found := p.ends m t
  match if longest then found.getLast? else found.head? with
  | some place => place.rest
  | none => t

def trimEnd (p : Pattern) (longest : Bool) (t : Text) : Text :=
  let found := (tails t).filter (p.isMatch m)
  match if longest then found.head? else found.getLast? with
  | some tail => t.take (t.length - tail.length)
  | none => t

end Pattern

end Runbook.Shell
