import Runbook.Shell.Regex

/-!
Scripts that edit a stream of lines: addresses choose lines, and actions change, show or move the text
that is being edited.
-/
namespace Runbook.Program.Editor
open Shell (Regex)

structure Search where
  regex : Regex
  foldsCase : Bool := false
  byLines : Bool := false

abbrev Wanted := Option Search

inductive Address where
  | line (n : Nat)
  | every (first step : Nat)
  | last
  | found (w : Wanted)

/-- Where a range ends: at an address, some lines later, or at a multiple of a number. -/
inductive RangeEnd where
  | line (n : Nat)
  | every (first step : Nat)
  | last
  | found (w : Wanted)
  | later (n : Nat)
  | multiple (n : Nat)

structure Selection where
  first : Option Address := none
  stop : Option RangeEnd := none
  inverted : Bool := false

inductive Recasing where
  | allUpper
  | allLower
  | nextUpper
  | nextLower
  | asIs

inductive Part where
  | text (t : Text)
  | group (n : Nat)
  | recase (r : Recasing)

structure Substitution where
  wanted : Wanted
  parts : List Part
  isGlobal : Bool := false
  shows : Bool := false
  nth : Nat := 1
  file : Option Text := none

inductive Jump where
  | always
  | ifReplaced
  | unlessReplaced
deriving DecidableEq

inductive Action where
  | enter (past : Nat)
  | close
  | label
  | append (t : Text)
  | insert (t : Text)
  | change (t : Text)
  | jump (j : Jump) (label : Text)
  | delete
  | deleteFirst
  | showName
  | recall
  | recallMore
  | remember
  | rememberMore
  | swap
  | list (width : Option Nat)
  | next
  | nextMore
  | print
  | printFirst
  | printNumber
  | quit (status : Nat)
  | quitSilently (status : Nat)
  | insertFile (path : Text)
  | insertLine (path : Text)
  | substitute (s : Substitution)
  | translate (table : List (Char × Char))
  | write (path : Text)
  | writeFirst (path : Text)
  | clear

structure Step where
  selection : Selection
  action : Action

structure Script where
  steps : Array Step
  labels : List (Text × Nat)
  silent : Bool := false

end Runbook.Program.Editor
