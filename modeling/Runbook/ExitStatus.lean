/-!
How a process ended, and the signals that a run passes on.
-/
namespace Runbook

inductive Signal where
  | interrupt
  | terminate
  | kill
deriving DecidableEq, Repr

def Signal.number : Signal → Nat
  | interrupt => 2
  | terminate => 15
  | kill => 9

inductive ExitStatus where
  | exited (code : Nat)
  | signaled (signal : Nat)
  | other
deriving DecidableEq, Repr

namespace ExitStatus

/-- A wait status: the low seven bits are zero for an exit, whose code is in the next byte, and else
the signal, except that all ones mean neither. -/
def ofRaw (raw : Int) : ExitStatus :=
  let bits := (raw % 65536).toNat
  let low := bits % 128
  if low = 0 then .exited (bits / 256)
  else if low = 127 then .other
  else .signaled low

def code : ExitStatus → Nat
  | exited n => n
  | signaled n => 128 + n
  | other => 1

end ExitStatus

/-- The group that a process leads: its number, if that fits. -/
def processGroup (pid : Option Nat) : Option Nat :=
  pid.filter fun n => 0 < n && n ≤ 2147483647

end Runbook
