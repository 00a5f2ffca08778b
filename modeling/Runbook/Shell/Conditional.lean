import Runbook.Shell.FileTest
import Runbook.Shell.Regex
import Runbook.Shell.Trace

/-!
The inside of double brackets: texts are compared with patterns and regular expressions, and numbers
are expressions.
-/
namespace Runbook.Shell
open ShellM Kernel

variable (e : Engine)

namespace Conditional

abbrev Answer := Except Nat Bool

def traceTerm (inverted : Bool) (parts : List Text) : ShellM Unit :=
  Trace.line e ("[[ " ++ (if inverted then "! ".toList else []) ++
    [' '].intercalate (parts.map fun (t : Text) => if t = [] then "''" else t) ++ " ]]")

def patternText (cs : List PatternChar) : Text :=
  cs.flatMap fun p => if p.isQuoted then ['\\', p.char] else [p.char]

def isRegexSign (c : Char) : Bool := c ∈ (".[]*^$()+?\x7b\x7d|\\" : Text)

def regexText (cs : List PatternChar) : Text :=
  cs.flatMap fun p => if p.isQuoted ∧ isRegexSign p.char then ['\\', p.char] else [p.char]

def matchRegex (t : Text) (cs : List PatternChar) : ShellM Answer := do
  let s ← get
  match Regex.parse { extended := true, refusesOrphans := true } cs with
  | .error _ => return .error 2
  | .ok ⟨regex, count, _⟩ =>
    let subject : Regex.Subject := { text := t.toArray, foldsCase := s.does "nocasematch" }
    let remember (parts : List Text) : ShellM Unit :=
      modify fun s => s.putGlobal "BASH_REMATCH" ⟨.indexed (Elements.ofList parts), {}⟩
    match regex.search subject 0 with
    | none =>
      remember []
      return .ok false
    | some (start, stop, groups) =>
      let part (i : Nat) : Text :=
        match groups.lookup i with
        | some (a, b) => subject.slice a b
        | none => []
      remember (subject.slice start stop :: (List.range count).map fun i => part (i + 1))
      return .ok true

def binary (inverted : Bool) (op left right : Text) : ShellM Answer := do
  let x := Engine.substituter e
  let a ← Expansion.singleText x left
  let s ← get
  if op = ['='] ∨ op = "==" ∨ op = "!=" then
    let cs ← Expansion.patternChars x right
    traceTerm e inverted [a, op, patternText cs]
    let found := (Pattern.read true cs).isMatch ⟨s.does "nocasematch"⟩ a
    return .ok (if op = "!=" then !found else found)
  else if op = "=~" then
    let cs ← Expansion.patternChars x right
    traceTerm e inverted [a, op, regexText cs]
    matchRegex a cs
  else
    let b ← Expansion.singleText x right
    traceTerm e inverted [a, op, b]
    if op = ['<'] then return .ok (Text.le a b && a ≠ b)
    else if op = ['>'] then return .ok (Text.le b a && a ≠ b)
    else if FileTest.isNumeric op then
      match ← tryEvaluate "[[" a with
      | none => return .ok false
      | some m =>
        match ← tryEvaluate "[[" b with
        | none => return .ok false
        | some n => return .ok (FileTest.compareNumbers op m n)
    else return .ok (← FileTest.compareFiles op a b)

def unary (inverted : Bool) (op operand : Text) : ShellM Answer := do
  let t ← Expansion.singleText (Engine.substituter e) operand
  traceTerm e inverted [op, t]
  return .ok (← FileTest.unary e ((op[1]?).getD ' ') t)

def negate (inverted : Bool) (a : Answer) : Answer := a.map (· != inverted)

def holds : Bool → Condition → ShellM Answer
  | inverted, .unary op t => return negate inverted (← unary e inverted op t)
  | inverted, .binary op a b => return negate inverted (← binary e inverted op a b)
  | inverted, .negated c => holds (!inverted) c
  | inverted, .grouped c => return negate inverted (← holds false c)
  | inverted, .both a b => do
    match ← holds false a with
    | .ok true => return negate inverted (← holds false b)
    | r => return negate inverted r
  | inverted, .either a b => do
    match ← holds false a with
    | .ok true => return .ok (!inverted)
    | .ok false => return negate inverted (← holds false b)
    | r => return r

def run (c : Condition) : ShellM Unit := do
  match ← holds e false c with
  | .ok true => setStatus 0
  | .ok false => setStatus 1
  | .error status => setStatus status

end Conditional

end Runbook.Shell
