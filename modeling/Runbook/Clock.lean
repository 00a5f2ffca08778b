import Runbook.Text.Basic

/-!
Points in time as milliseconds since the start of 1970, and how they are written.
-/
namespace Runbook

structure Instant where
  millis : Nat
deriving DecidableEq, Repr

structure DateTime where
  year : Nat
  month : Nat
  day : Nat
  hour : Nat
  minute : Nat
  second : Nat
deriving DecidableEq, Repr

def padded (width n : Nat) : Text :=
  List.replicate (width - (Text.ofNat n).length) '0' ++ Text.ofNat n

namespace Instant

/-- Year, month and day of a day since the start of 1970. Years start in March, so that the leap day is the
last one. -/
def civil (days : Nat) : Nat × Nat × Nat :=
  let shifted := days + 719468
  let cycle := shifted / 146097
  let dayOfCycle := shifted % 146097
  let yearOfCycle :=
    (dayOfCycle - dayOfCycle / 1460 + dayOfCycle / 36524 - dayOfCycle / 146096) / 365
  let dayOfYear := dayOfCycle - (365 * yearOfCycle + yearOfCycle / 4 - yearOfCycle / 100)
  let march := (5 * dayOfYear + 2) / 153
  let month := if march < 10 then march + 3 else march - 9
  (cycle * 400 + yearOfCycle + (if month ≤ 2 then 1 else 0), month, dayOfYear - (153 * march + 2) / 5 + 1)

def seconds (i : Instant) : Nat := i.millis / 1000

def dateTime (i : Instant) : DateTime :=
  let (year, month, day) := civil (i.seconds / 86400)
  let time := i.seconds % 86400
  ⟨year, month, day, time / 3600, time / 60 % 60, time % 60⟩

end Instant

namespace DateTime

/-- As in `2024-05-01T12-30-00Z`, which can stand in a file name. -/
def dashed (d : DateTime) : Text :=
  padded 4 d.year ++ "-" ++ padded 2 d.month ++ "-" ++ padded 2 d.day ++ "T" ++ padded 2 d.hour ++ "-" ++
    padded 2 d.minute ++ "-" ++ padded 2 d.second ++ "Z"

/-- As in `20240501T123000Z`. -/
def compact (d : DateTime) : Text :=
  padded 4 d.year ++ padded 2 d.month ++ padded 2 d.day ++ "T" ++ padded 2 d.hour ++ padded 2 d.minute ++
    padded 2 d.second ++ "Z"

/-- As in `2024-05-01T12:30:00Z`. -/
def iso (d : DateTime) : Text :=
  padded 4 d.year ++ "-" ++ padded 2 d.month ++ "-" ++ padded 2 d.day ++ "T" ++ padded 2 d.hour ++ ":" ++
    padded 2 d.minute ++ ":" ++ padded 2 d.second ++ "Z"

end DateTime

end Runbook
