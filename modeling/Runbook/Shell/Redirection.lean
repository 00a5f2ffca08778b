import Runbook.Shell.Engine

/-!
Redirections: what a command's descriptors lead to while it runs, and how that is undone.
-/
namespace Runbook.Shell
open ShellM Kernel Sys

variable (e : Engine)

namespace Redirection

abbrev Undo := List (Nat × Option Nat)

inductive Cause where
  | fault (f : Fault)
  | ambiguous
  | wouldOverwrite
  | notAssigned

def Cause.message : Cause → Text
  | fault f => f.message
  | ambiguous => "ambiguous redirect"
  | wouldOverwrite => "cannot overwrite existing file"
  | notAssigned => "cannot assign fd to variable"

structure Failure where
  subject : Text
  cause : Cause

abbrev RedirectM := ExceptT Failure ShellM

def ownDescriptors : Nat := 10

def save (fd : Nat) : ShellM (Nat × Option Nat) := do
  match ← call fun pid => duplicateFrom pid fd ownDescriptors true with
  | .ok copy => return (fd, some copy)
  | .error _ => return (fd, none)

def undo (changes : Undo) : ShellM Unit := do
  for (fd, copy) in changes do
    match copy with
    | some old => tell fun pid => do
      duplicate pid old fd
      close pid old
    | none => tell fun pid => close pid fd

def keep (changes : Undo) : ShellM Unit := do
  for (_, copy) in changes do
    match copy with
    | some old => tell fun pid => close pid old
    | none => pure ()

def isNumber (t : Text) : Bool := t ≠ [] && t.all Char.isDigit

def failing {α : Type} (subject : Text) (cause : Cause) : RedirectM α := throw ⟨subject, cause⟩

def target (t : Text) : RedirectM Text := do
  match ← (Fields.ofWord (Engine.substituter e) t : ShellM (List Text)) with
  | [one] => return one
  | _ => failing t .ambiguous

abbrev Opener := Nat → Sys Nat

/-- Lets the descriptor of a redirection lead to an open file. A named one gets a new descriptor, which
stays. -/
def lead (source : RedirectSource) (usual : Nat) (subject : Text) (opener : Opener) : RedirectM Undo := do
  let refuse (f : Fault) : RedirectM Undo := failing subject (.fault f)
  let change (fd : Nat) : RedirectM Undo := do
    match ← (call opener : ShellM _) with
    | .error f => refuse f
    | .ok id =>
      let old ← (save fd : ShellM _)
      tell fun pid => install pid fd id false
      return [old]
  match source with
  | .usual => change usual
  | .number fd => change fd
  | .named name =>
    let r ← (call fun pid => do installFrom pid ownDescriptors (← opener pid) false : ShellM _)
    match r with
    | .error f => refuse f
    | .ok fd =>
      match ← (assign name (Text.ofNat fd) : ShellM _) with
      | .ok _ => return []
      | .error refusal =>
        tell fun pid => close pid fd
        (report refusal.message : ShellM _)
        failing name .notAssigned

def sameFile (fd : Nat) : Opener := fun pid => do return (← descriptor pid fd).file

def ownNumber (source : RedirectSource) (usual : Nat) : RedirectM Nat := do
  match source with
  | .usual => return usual
  | .number fd => return fd
  | .named name =>
    let value := (← (get : ShellM State)).textOf name
    if isNumber value then return State.decimal value else failing name .ambiguous

def closeOwn (source : RedirectSource) (usual : Nat) : RedirectM Undo := do
  let fd ← ownNumber source usual
  match source with
  | .named _ =>
    Engine.closeDescriptor fd
    return []
  | _ =>
    let old ← (save fd : ShellM _)
    Engine.closeDescriptor fd
    return [old]

/-- What a failed copy is about: the copied descriptor where it is written as a number, else the word
or the descriptor that would change. -/
def copySubject (written : Text) (source : RedirectSource) (usual : Nat) : Text :=
  if isNumber written then written
  else
    match source with
    | .usual => written
    | .number fd => if fd = usual then written else Text.ofNat fd
    | .named _ => written

def openTo (r : Redirect) (usual : Nat) (access : Access) : RedirectM Undo := do
  let path ← target e r.target
  let s ← (get : ShellM State)
  if access.truncates ∧ s.isOn .noclobber ∧ r.kind ≠ .clobber then
    let exists? ← (call fun pid =>
      return (← disk).content (← stat pid true path) matches .data _ : ShellM _)
    match exists? with
    | .ok true => failing path .wouldOverwrite
    | _ => pure ()
  let side ← (call fun pid => side? pid path access : ShellM _)
  let changes ← lead r.source usual path fun pid => openPath pid path access 0o666
  match side with
  | .ok (some (p, before)) =>
    let wait : Proc (Except Fault Unit) := Proc.await fun _ => do
      if ← hasOther access p before then return some () else return none
    let _ ← (ShellM.lift wait : ShellM _)
    return changes
  | _ => return changes

def openBoth (r : Redirect) (access : Access) : RedirectM Undo := do
  let first ← openTo e { r with source := .number 1 } 1 access
  let second ← lead (.number 2) 2 [] (sameFile 1)
  return second ++ first

def copy (r : Redirect) (usual : Nat) (isOutput : Bool) : RedirectM Undo := do
  let word ← target e r.target
  let subject := copySubject r.target r.source usual
  if word = ['-'] then closeOwn r.source usual
  else if isNumber word then
    let fd := State.decimal word
    if r.source = .number fd ∨ (r.source = .usual ∧ usual = fd) then return []
    else lead r.source usual subject (sameFile fd)
  else if word.getLast? = some '-' ∧ isNumber word.dropLast then
    let fd := State.decimal word.dropLast
    let changes ← lead r.source usual subject (sameFile fd)
    if r.source = .number fd then return changes
    else
      Engine.closeDescriptor fd
      return changes
  else if word = [] then failing r.target (.fault .badDescriptor)
  else if isOutput ∧ (r.source = .usual ∨ r.source = .number 1) then
    openBoth e { r with kind := .allOutput } .forWriting
  else failing r.target .ambiguous

def one (r : Redirect) : RedirectM Undo := do
  let x := Engine.substituter e
  match r.kind with
  | .input => openTo e r 0 .forReading
  | .output | .clobber => openTo e r 1 .forWriting
  | .append => openTo e r 1 .forAppending
  | .both => openTo e r 0 .forBoth
  | .allOutput => openBoth e r .forWriting
  | .allAppend => openBoth e r .forAppending
  | .copyInput => copy e r 0 false
  | .copyOutput => copy e r 1 true
  | .document _ _ isLiteral body =>
    let t ← (if isLiteral then pure body else Expansion.documentText x body : ShellM Text)
    lead r.source 0 [] fun _ => filledPipe t
  | .hereString =>
    let t ← (Expansion.assignedText x r.target : ShellM Text)
    lead r.source 0 [] fun _ => filledPipe (t ++ ['\n'])

/-- Carries out redirections from left to right. If one fails, it is reported and what was changed is
undone. None means failure. -/
def performFrom : Undo → List Redirect → ShellM (Option Undo)
  | changes, [] => return some changes
  | changes, r :: rest => do
    match ← attempt (one e r).run with
    | .ok (.ok more) => performFrom (more ++ changes) rest
    | .ok (.error f) => do
      report (f.subject ++ ": " ++ f.cause.message)
      undo changes
      return none
    | .error j =>
      undo changes
      jump j

/-- What is done once the redirections are carried out. -/
def within (rs : List Redirect) (m : Undo → ShellM Unit) : ShellM Unit := do
  match ← performFrom e [] rs with
  | none => setStatus 1
  | some changes => m changes

end Redirection

end Runbook.Shell
