import Runbook.Source.Reference

/-!
Shell commands as they are written. Words keep their text with all quotes in it; what they mean is
found out when a command runs.
-/
namespace Runbook.Shell

/-- Which descriptor a redirection changes: the usual one, a given one, or a new one whose number goes
to a variable. -/
inductive RedirectSource where
  | usual
  | number (n : Nat)
  | named (name : Text)
deriving DecidableEq

/-- A document stands in the text behind the command; `strips` drops tabs at the start of its lines,
and a literal one is taken as it is. -/
inductive RedirectKind where
  | input
  | output
  | append
  | clobber
  | both
  | document (id : Nat) (strips isLiteral : Bool) (body : Text)
  | hereString
  | copyInput
  | copyOutput
  | allOutput
  | allAppend
deriving DecidableEq

structure Redirect where
  source : RedirectSource
  kind : RedirectKind
  target : Text

inductive Condition where
  | unary (op operand : Text)
  | binary (op left right : Text)
  | negated (c : Condition)
  | grouped (c : Condition)
  | both (a b : Condition)
  | either (a b : Condition)

inductive Separator where
  | semicolon
  | newline
  | ampersand
deriving DecidableEq

/-- How a clause of a case ends: leave, fall into the next body, or test the next patterns. -/
inductive ClauseEnd where
  | leave
  | fall
  | test

/-- The line of a function is that of its name, and `base` the one on which its body starts. -/
inductive Command where
  | simple (line : Nat) (words : List Text) (redirects : List Redirect)
  | list (items : List (Command × Separator))
  | both (a b : Command)
  | either (a b : Command)
  | pipe (a b : Command)
  | inverted (c : Command)
  | timed (isPosix : Bool) (c : Option Command)
  | group (body : Command)
  | subshell (line : Nat) (body : Command)
  | branch (test yes : Command) (no : Option Command)
  | loop (isUntil : Bool) (test body : Command)
  | each (line : Nat) (name : Text) (words : Option (List Text)) (body : Command)
  | count (line : Nat) (start test step : Text) (body : Command)
  | menu (line : Nat) (name : Text) (words : Option (List Text)) (body : Command)
  | choose (line : Nat) (subject : Text) (clauses : List (List Text × Option Command × ClauseEnd))
  | function (line base : Nat) (name : Text) (body : Command)
  | condition (line : Nat) (c : Condition)
  | arithmetic (line : Nat) (expression : Text)
  | coprocess (name : Text) (c : Command)
  | redirected (c : Command) (redirects : List Redirect)

abbrev Bodies := List (Nat × Text)

namespace Redirect

def fill (bodies : Bodies) (r : Redirect) : Redirect :=
  match r.kind with
  | .document id strips isLiteral _ =>
    { r with kind := .document id strips isLiteral ((bodies.lookup id).getD []) }
  | _ => r

end Redirect

mutual

def Command.fill (bodies : Bodies) : Command → Command
  | .simple line words redirects => .simple line words (redirects.map (·.fill bodies))
  | .list items => .list (fillItems bodies items)
  | .both a b => .both (a.fill bodies) (b.fill bodies)
  | .either a b => .either (a.fill bodies) (b.fill bodies)
  | .pipe a b => .pipe (a.fill bodies) (b.fill bodies)
  | .inverted c => .inverted (c.fill bodies)
  | .timed isPosix none => .timed isPosix none
  | .timed isPosix (some c) => .timed isPosix (some (c.fill bodies))
  | .group body => .group (body.fill bodies)
  | .subshell line body => .subshell line (body.fill bodies)
  | .branch test yes none => .branch (test.fill bodies) (yes.fill bodies) none
  | .branch test yes (some no) => .branch (test.fill bodies) (yes.fill bodies) (some (no.fill bodies))
  | .loop isUntil test body => .loop isUntil (test.fill bodies) (body.fill bodies)
  | .each line name words body => .each line name words (body.fill bodies)
  | .count line start test step body => .count line start test step (body.fill bodies)
  | .menu line name words body => .menu line name words (body.fill bodies)
  | .choose line subject clauses => .choose line subject (fillClauses bodies clauses)
  | .function line base name body => .function line base name (body.fill bodies)
  | .condition line c => .condition line c
  | .arithmetic line expression => .arithmetic line expression
  | .coprocess name c => .coprocess name (c.fill bodies)
  | .redirected c redirects => .redirected (c.fill bodies) (redirects.map (·.fill bodies))

def fillItems (bodies : Bodies) : List (Command × Separator) → List (Command × Separator)
  | [] => []
  | (c, s) :: rest => (c.fill bodies, s) :: fillItems bodies rest

def fillClauses (bodies : Bodies) :
    List (List Text × Option Command × ClauseEnd) → List (List Text × Option Command × ClauseEnd)
  | [] => []
  | (patterns, none, e) :: rest => (patterns, none, e) :: fillClauses bodies rest
  | (patterns, some c, e) :: rest => (patterns, some (c.fill bodies), e) :: fillClauses bodies rest

end

end Runbook.Shell
