import Runbook.Text.Basic

/-!
Identifiers, places in a source file, and references to rules and workflows. A reference is written
`name` for a declaration of the same module and `alias.name` for one of an imported module.
-/
namespace Runbook

def isNameStart (c : Char) : Bool := c.isAlpha || c == '_'

def isNameChar (c : Char) : Bool := c.isAlphanum || c == '_'

def isIdentifier : Text → Bool
  | [] => false
  | c :: rest => isNameStart c && rest.all isNameChar

def isReference (t : Text) : Bool :=
  match t.cutAt (· == '.') with
  | some (owner, name) => isIdentifier owner && isIdentifier name
  | none => isIdentifier t

/-- A place in a source file; lines and columns start at one, columns count bytes. -/
structure Location where
  line : Nat
  col : Nat
deriving DecidableEq, Repr

/-- A reference as it is written, at the keyword of its statement. -/
structure Reference where
  value : Text
  loc : Location
deriving DecidableEq, Repr

inductive Target where
  | own (name : Text)
  | imported (owner name : Text)
deriving DecidableEq, Repr

/-- The target of a written reference: one part, or two parts, none of them empty. -/
def Target.ofText (t : Text) : Option Target :=
  match t.splitOn '.' with
  | [name] => if name = [] then none else some (.own name)
  | [owner, name] => if owner = [] ∨ name = [] then none else some (.imported owner name)
  | _ => none

def Target.toText : Target → Text
  | .own name => name
  | .imported owner name => owner ++ '.' :: name

def Reference.target (r : Reference) : Option Target := Target.ofText r.value

end Runbook
