import Runbook.Shell.Builtin.Usage
import Runbook.Shell.Format

/-!
The commands that show texts.
-/
namespace Runbook.Shell
open ShellM Kernel

namespace Builtin

def echo : Run := fun _ args => do
  let s ← get
  writeOut "echo" (echoText (s.does "xpg_echo") args)

/-- What has been formatted so far: text that is not written yet, all bytes, and whether something
failed. -/
structure Printed where
  held : Text := []
  count : Nat := 0
  failed : Bool := false

def wholeLines (t : Text) : Text × Text :=
  let tail := (t.reverse.takeWhile (· ≠ '\n')).reverse
  (t.take (t.length - tail.length), tail)

def printItems (keepsAll : Bool) : Printed → List Format.Item → ShellM Printed
  | p, [] => return p
  | p, .text t :: rest =>
    printItems keepsAll { p with held := t.reverse ++ p.held, count := p.count + t.length } rest
  | p, .count name :: rest => do
    let _ ← assign name (Text.ofNat p.count)
    printItems keepsAll p rest
  | p, .problem t :: rest => do
    let p ← flush p
    complain "printf" t
    printItems keepsAll { p with failed := true } rest
  | p, .warning t :: rest => do
    let p ← flush p
    complain "printf" t
    printItems keepsAll p rest
where
  flush (p : Printed) : ShellM Printed := do
    if keepsAll then return p
    else
      let (ready, left) := wholeLines p.held.reverse
      if ready ≠ [] then
        let _ ← write 1 ready
      return { p with held := left.reverse }

def printf : Run := fun _ args =>
  withOptions "printf" { plain := [], valued := "v" } args fun os operands => do
    let holder? := value? os 'v'
    match operands with
    | [] => showUsage "printf"
    | format :: rest =>
      let name := holder?.getD []
      let base := name.takeWhile (· ≠ '[')
      if holder?.isSome ∧ !(isIdentifier base && (base = name || name.getLast? = some ']')) then do
        complain "printf" ("\x60" ++ name ++ "': not a valid identifier")
        setStatus 2
      else
        let s ← get
        let items := Format.run ⟨s.now, s.started.toNat⟩ format rest
        let p ← printItems holder?.isSome {} items
        let text := p.held.reverse
        match holder? with
        | some name =>
          let result ←
            match Text.cutAt (· == '[') name with
            | some (base, inside) =>
              match ← placeOf base inside.dropLast with
              | .ok place => assignTo place false text
              | .error r => pure (.error r)
            | none => assign name (text.takeWhile (· ≠ '\x00'))
          match result with
          | .ok () => setStatus (if p.failed then 1 else 0)
          | .error r =>
            report r.message
            setStatus 1
        | none =>
          writeOut "printf" text
          if p.failed then setStatus 1

end Builtin

end Runbook.Shell
