import Runbook.Shell.Engine

/-!
Tests on one or two operands: of files, texts, variables and settings.
-/
namespace Runbook.Shell
open ShellM Kernel

namespace FileTest

def status? (follow : Bool) (path : Text) : ShellM (Option Sys.FileStatus) := do
  match ← call fun pid => Sys.status pid follow path with
  | .ok s => return some s
  | .error _ => return none

def holdsOf (follow : Bool) (p : Sys.FileStatus → Bool) (path : Text) : ShellM Bool := do
  match ← status? follow path with
  | some s => return p s
  | none => return false

def isSet (e : Engine) (t : Text) : ShellM Bool := do
  let s ← get
  if t ≠ [] ∧ t.all Char.isDigit then return State.decimal t ≤ s.arguments.length
  else
    let (name, inside) : Text × Option Text :=
      match Text.cutAt (· == '[') t with
      | some (name, rest) => if rest.getLast? = some ']' then (name, some rest.dropLast) else (t, none)
      | none => (t, none)
    let target := s.follow name
    let value := (s.lookup? target).map (·.value)
    match inside with
    | none =>
      match target.cutAt (· == '[') with
      | some (base, rest) =>
        match ← placeOf base rest.dropLast with
        | .ok p => return (← held p).isSome
        | .error _ => return false
      | none => return (value.bind (·.text?)).isSome
    | some ['@'] | some ['*'] => return value.any fun v => v.texts ≠ []
    | some key =>
      match value with
      | none => return false
      | some v =>
        let x := Engine.substituter e
        if v.isKeyed then
          let k ← Expansion.singleText x key
          return (v.entries.lookup k).isSome
        else
          match ← placeOf target (← Expansion.expressionText x key) with
          | .ok p => return (← held p).isSome
          | .error _ => return false

def unary (e : Engine) (letter : Char) (t : Text) : ShellM Bool := do
  let s ← get
  match letter with
  | 'z' => return t = []
  | 'n' => return t ≠ []
  | 'a' | 'e' | 'r' | 'w' | 'O' | 'G' => holdsOf true (fun _ => true) t
  | 'x' => holdsOf true (fun f => f.kind = .directory || f.mode &&& 0o111 ≠ 0) t
  | 'f' => holdsOf true (·.kind = .regular) t
  | 'd' => holdsOf true (·.kind = .directory) t
  | 's' => holdsOf true (0 < ·.size) t
  | 'L' | 'h' => holdsOf false (·.kind = .link) t
  | 'p' => holdsOf true (·.kind = .queue) t
  | 'c' => holdsOf true (·.kind = .device) t
  | 'g' => holdsOf true (·.mode &&& 0o2000 ≠ 0) t
  | 'u' => holdsOf true (·.mode &&& 0o4000 ≠ 0) t
  | 'k' => holdsOf true (·.mode &&& 0o1000 ≠ 0) t
  | 'o' => return (Setting.ofName? t).any s.isOn
  | 'v' => isSet e t
  | 'R' => return ((s.find? t).map fun v => v.attributes.reference && v.value.isSet).getD false
  | _ => return false

def isUnary (t : Text) : Bool :=
  match t with
  | ['-', c] => c ∈ ("abcdefghknoprstuvwxzGLNORS" : Text)
  | _ => false

def binarySigns : List Text :=
  ["=", "==", "!=", "<", ">", "-nt", "-ot", "-ef", "-eq", "-ne", "-lt", "-le", "-gt", "-ge"]

def isBinary (t : Text) : Bool := t ∈ binarySigns

def isNumeric (op : Text) : Bool :=
  op ∈ (["-eq", "-ne", "-lt", "-le", "-gt", "-ge"] : List Text)

def compareNumbers (op : Text) (a b : Int) : Bool :=
  match String.ofList op with
  | "-eq" => a = b
  | "-ne" => a ≠ b
  | "-lt" => a < b
  | "-le" => a ≤ b
  | "-gt" => a > b
  | "-ge" => a ≥ b
  | _ => false

def compareFiles (op a b : Text) : ShellM Bool := do
  let x ← status? true a
  let y ← status? true b
  match String.ofList op, x, y with
  | "-nt", some x, some y => return y.changed < x.changed
  | "-nt", some _, none => return true
  | "-ot", some x, some y => return x.changed < y.changed
  | "-ot", none, some _ => return true
  | "-ef", some x, some y => return x.number = y.number
  | _, _, _ => return false

def integer? (t : Text) : Option Int :=
  let trimmed := ((t.dropWhile isSpaceChar).reverse.dropWhile isSpaceChar).reverse
  let digits (ds : Text) : Option Int :=
    if ds ≠ [] ∧ ds.all Char.isDigit then some (State.decimal ds : Int) else none
  let value : Option Int :=
    match trimmed with
    | '-' :: ds => (digits ds).map (- ·)
    | '+' :: ds => digits ds
    | ds => digits ds
  value.filter fun n => -9223372036854775808 ≤ n ∧ n ≤ 9223372036854775807

end FileTest

end Runbook.Shell
