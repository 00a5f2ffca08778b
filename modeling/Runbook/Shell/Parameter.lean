import Runbook.Shell.Assign
import Runbook.Shell.Brace
import Runbook.Shell.Glyph

/-!
Values of parameters and what can be made of them: parts, replacements, letters of another size and
forms that the shell reads back.
-/
namespace Runbook.Shell

/-- What a parameter gives. A list in double quotes stays apart or, with a star, is joined. -/
inductive Got where
  | unset
  | text (t : Text)
  | list (ts : List Text) (isStar : Bool)
deriving DecidableEq

namespace Got

def map (f : Text → Text) : Got → Got
  | unset => unset
  | text t => text (f t)
  | list ts isStar => list (ts.map f) isStar

def isMissing (nullToo : Bool) : Got → Bool
  | unset => true
  | text t => nullToo && t.isEmpty
  | list ts _ => ts.isEmpty || (nullToo && ts.all List.isEmpty && ts.length ≤ 1)

end Got

namespace State

def decimal (t : Text) : Nat := valueOf 10 t

def dialect (s : State) : Dialect :=
  { patternLists := s.does "extglob"
    aliases := if s.does "expand_aliases" then s.aliases else [] }

def special? (s : State) (name : Text) : Option Got :=
  if name ≠ [] ∧ name.all Char.isDigit then
    let n := decimal name
    some (if n = 0 then .text s.name else (s.arguments[n - 1]?).elim .unset .text)
  else
    match name with
    | ['@'] => some (.list s.arguments false)
    | ['*'] => some (.list s.arguments true)
    | ['#'] => some (.text (Text.ofNat s.arguments.length))
    | ['?'] => some (.text (Text.ofNat s.status))
    | ['-'] => some (.text s.settingLetters)
    | ['$'] => some (.text (Text.ofNat s.mainPid))
    | ['!'] => some (s.background.elim .unset fun n => .text (Text.ofNat n))
    | _ => none

def parameterName (p : Parameter) : Text :=
  match p.subscript with
  | some key => p.name ++ '[' :: key ++ [']']
  | none => if p.name.head?.any isNameStart then p.name else '$' :: p.name

end State

/-! Parts of texts. -/

namespace Part

/-- The part of a text between two offsets; offsets below zero count from the end. None if the end
comes before the start. -/
def slice (t : Text) (offset : Int) (length : Option Int) : Option Text :=
  let n : Int := t.length
  let start := if offset < 0 then offset + n else offset
  if start < 0 ∨ n < start then some []
  else
    match length with
    | none => some (t.drop start.toNat)
    | some l =>
      let stop := if l < 0 then l + n else start + l
      if stop < start then none else some ((t.drop start.toNat).take (stop - start).toNat)

def sliceElements (es : List (Nat × Text)) (offset : Int) (length : Option Int) : List Text :=
  let n : Int := Elements.next es
  let start := if offset < 0 then offset + n else offset
  if start < 0 then []
  else
    let found := (es.filter fun (i, _) => start ≤ (i : Int)).map (·.2)
    match length with
    | none => found
    | some l => found.take l.toNat

/-- The place of the colon between an offset and a length. Colons of choices and in brackets do not
count. -/
def cutLength : Nat → Nat → Text → Text → Text × Option Text
  | _, _, before, [] => (before.reverse, none)
  | depth, choices, before, c :: rest =>
    if c = '(' ∨ c = '[' ∨ c = '{' then cutLength (depth + 1) choices (c :: before) rest
    else if c = ')' ∨ c = ']' ∨ c = '}' then cutLength (depth - 1) choices (c :: before) rest
    else if depth = 0 ∧ c = '?' then cutLength depth (choices + 1) (c :: before) rest
    else if depth = 0 ∧ c = ':' then
      if 0 < choices then cutLength depth (choices - 1) (c :: before) rest else (before.reverse, some rest)
    else cutLength depth choices (c :: before) rest

/-! Replacements. -/

inductive Template where
  | literal (t : Text)
  | parts (ps : List (Option Char))

/-- The template of an expanded word: an ampersand that was not quoted is what was matched, and a
backslash before it or another one makes it an ordinary character. -/
def templateParts : List PatternChar → List (Option Char)
  | [] => []
  | ⟨'\\', false⟩ :: p :: rest =>
    if p.char = '&' ∨ p.char = '\\' then some p.char :: templateParts rest
    else some '\\' :: templateParts (p :: rest)
  | ⟨'&', false⟩ :: rest => none :: templateParts rest
  | p :: rest => some p.char :: templateParts rest
termination_by ps => ps.length

def template (usesMatch : Bool) (ps : List PatternChar) : Template :=
  if usesMatch && ps.any (fun p => p.char = '&' && !p.isQuoted) then .parts (templateParts ps)
  else .literal (ps.map (·.char))

def Template.fill (matched : Text) : Template → Text
  | .literal t => t
  | .parts ps => ps.flatMap fun
    | some c => [c]
    | none => matched

inductive Anchor where
  | first
  | all
  | start
  | finish
deriving DecidableEq

def replaceFrom (m : Pattern.Matcher) (p : Pattern) (r : Template) (all : Bool) :
    Nat → Nat → Text → Text
  | 0, _, t => t
  | _, _, [] => []
  | fuel + 1, left, c :: rest =>
    match (Pattern.reach m (p.size + 1) p [⟨left, c :: rest⟩]).getLast? with
    | some place =>
      if place.left = left then c :: replaceFrom m p r all fuel (left - 1) rest
      else
        let filled := r.fill ((c :: rest).take (left - place.left))
        if all then filled ++ replaceFrom m p r all fuel place.left place.rest else filled ++ place.rest
    | none => c :: replaceFrom m p r all fuel (left - 1) rest

def replace (m : Pattern.Matcher) (p : Pattern) (r : Template) (anchor : Anchor) (t : Text) : Text :=
  match anchor with
  | .start =>
    match p.afterLongest m t with
    | some place => r.fill (t.take (t.length - place.left)) ++ place.rest
    | none => t
  | .finish =>
    match (Pattern.tails t).find? (p.isMatch m) with
    | some tail => t.take (t.length - tail.length) ++ r.fill tail
    | none => t
  | _ => if p.isEmpty then t else replaceFrom m p r (anchor = .all) (t.length + 1) t.length t

/-! Letters of another size. -/

def toggle (c : Char) : Char := if c.isUpper then c.toLower else c.toUpper

def recaseChar (sign c : Char) : Char :=
  if sign = '^' then c.toUpper else if sign = ',' then c.toLower else toggle c

def recase (m : Pattern.Matcher) (sign : Char) (all : Bool) (p : Option Pattern) (t : Text) : Text :=
  let change (c : Char) : Char :=
    if p.elim true fun p => p.isMatch m [c] then recaseChar sign c else c
  if all then t.map change
  else
    match t with
    | [] => []
    | c :: rest => change c :: rest

/-! Forms. -/

def reusable (t : Text) : Text := if needsEscapes t then escapedQuote t else singleQuote t

def promptText (s : State) : Nat → Text → Text
  | 0, t => t
  | _, [] => []
  | fuel + 1, '\\' :: c :: rest =>
    let go (t : Text) : Text := t ++ promptText s fuel rest
    match c with
    | 'n' => go ['\n']
    | 'a' => go ['\x07']
    | 'e' => go ['\x1b']
    | 'r' => go ['\r']
    | '\\' => go ['\\']
    | '$' => go ['#']
    | 'u' => go "root"
    | 'h' => go ((s.textOf "HOSTNAME").takeWhile (· ≠ '.'))
    | 'H' => go (s.textOf "HOSTNAME")
    | 's' => go ((s.name.reverse.takeWhile (· ≠ '/')).reverse)
    | 'v' => go "5.2"
    | 'V' => go "5.2.21"
    | 'w' => go (s.textOf "PWD")
    | 'W' => go (((s.textOf "PWD").reverse.takeWhile (· ≠ '/')).reverse)
    | 'j' => go (Text.ofNat s.jobs.length)
    | '#' | '!' => go ['1']
    | '[' | ']' => go []
    | c => go ['\\', c]
  | fuel + 1, c :: rest => c :: promptText s fuel rest

def isForm (c : Char) : Bool := c ∈ ("QEPAKakuUL" : Text)

def form (c : Char) (t : Text) : Text :=
  match c with
  | 'Q' => reusable t
  | 'E' => decodeEscaped t
  | 'U' => t.map Char.toUpper
  | 'L' => t.map Char.toLower
  | 'u' => recase {} '^' false none t
  | _ => t

end Part

end Runbook.Shell
