import Runbook.Shell.Builtin.Usage
import Runbook.Shell.FileTest

/-!
The command that tests its arguments. How they are read depends on their number first.
-/
namespace Runbook.Shell
open ShellM Kernel

variable (e : Engine)

namespace Builtin.Test

/-- The arguments, the ones that are still to be read, and whether something stands behind the last. -/
structure Reading where
  rest : List Text
  closer : Option Text

abbrev TestM := StateT Reading (ExceptT Text ShellM)

def wrong {α : Type} (t : Text) : TestM α := throw t

def lift {α : Type} (m : ShellM α) : TestM α := fun r => ExceptT.lift (do return (← m, r))

def left : TestM (List Text) := do return (← get).rest

def skip (n : Nat) : TestM Unit := modify fun r => { r with rest := r.rest.drop n }

def advance : TestM Unit := do
  skip 1
  if (← left) = [] then wrong "argument expected"

def integer (t : Text) : TestM Int :=
  match FileTest.integer? t with
  | some n => return n
  | none => wrong (t ++ ": integer expression expected")

def binary (a op b : Text) : TestM Bool := do
  if op = ['='] ∨ op = "==" then return a = b
  else if op = "!=" then return a ≠ b
  else if op = ['<'] then return Text.le a b && a ≠ b
  else if op = ['>'] then return Text.le b a && a ≠ b
  else if FileTest.isNumeric op then
    let m ← integer a
    let n ← integer b
    return FileTest.compareNumbers op m n
  else lift (FileTest.compareFiles op a b)

def unary (op t : Text) : TestM Bool := lift (FileTest.unary e ((op[1]?).getD ' ') t)

def two (a b : Text) : TestM Bool := do
  if a = ['!'] then return b = []
  else if FileTest.isUnary a then unary e a b
  else wrong (a ++ ": unary operator expected")

def three (a b c : Text) : TestM Bool := do
  if FileTest.isBinary b then binary a b c
  else if b = "-a" then return a ≠ [] && c ≠ []
  else if b = "-o" then return a ≠ [] || c ≠ []
  else if a = ['!'] then return !(← two e b c)
  else if a = ['('] ∧ c = [')'] then return b ≠ []
  else wrong (b ++ ": binary operator expected")

inductive Level where
  | either
  | both
  | term

/-- Reads a test of any length; `fuel` is more than the number of steps. -/
def longer : Nat → Level → TestM Bool
  | 0, _ => wrong "too many arguments"
  | fuel + 1, .either => do
    let a ← longer fuel .both
    if (← left).head? = some "-o" then
      skip 1
      let b ← longer fuel .either
      return a || b
    else return a
  | fuel + 1, .both => do
    let a ← longer fuel .term
    if (← left).head? = some "-a" then
      skip 1
      let b ← longer fuel .both
      return a && b
    else return a
  | fuel + 1, .term => do
    match ← left with
    | [] => wrong "argument expected"
    | ['!'] :: _ => do
      advance
      return !(← longer fuel .term)
    | ['('] :: _ =>
      advance
      let a ← longer fuel .either
      match ← left with
      | [')'] :: _ =>
        skip 1
        return a
      | t :: _ => wrong ("\x60)' expected, found " ++ t)
      | [] =>
        match (← get).closer with
        | some t => wrong ("\x60)' expected, found " ++ t)
        | none => wrong "\x60)' expected"
    | a :: op :: b :: _ =>
      if FileTest.isBinary op then
        skip 3
        binary a op b
      else if FileTest.isUnary a then
        skip 2
        unary e a op
      else
        skip 1
        return a ≠ []
    | [a, b] =>
      if FileTest.isUnary a then
        skip 2
        unary e a b
      else
        skip 1
        return a ≠ []
    | [a] =>
      skip 1
      return a ≠ []

def whole (count : Nat) : TestM Bool := do
  let r ← longer e (4 * count + 10) .either
  match ← left with
  | [] => return r
  | t :: _ =>
    if t.head? = some '-' then wrong ("syntax error: \x60" ++ t ++ "' unexpected") else wrong "too many arguments"

def holds (args : List Text) : TestM Bool := do
  match args with
  | [] => return false
  | [a] => return a ≠ []
  | [a, b] => two e a b
  | [a, b, c] => three e a b c
  | [a, b, c, d] =>
    if a = ['!'] then return !(← three e b c d)
    else if a = ['('] ∧ d = [')'] then two e b c
    else whole e 4
  | args => whole e args.length

def run (name : Text) (closer : Option Text) (args : List Text) : ShellM Unit := do
  match ← ((holds e args).run ⟨args, closer⟩).run with
  | .ok (true, _) => setStatus 0
  | .ok (false, _) => setStatus 1
  | .error t =>
    complain name t
    setStatus 2

end Builtin.Test

namespace Builtin

def test : Run := fun e args => Test.run e "test" none args

def bracket : Run := fun e args =>
  if args.getLast? = some [']'] then Test.run e "[" (some [']']) args.dropLast
  else do
    complain "[" "missing \x60]'"
    setStatus 2

end Builtin

end Runbook.Shell
