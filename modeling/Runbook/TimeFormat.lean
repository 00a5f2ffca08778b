import Runbook.Clock

/-!
Points in time written after a pattern in which a percent sign and a letter stand for a part.
-/
namespace Runbook

variable (d : DateTime)

namespace DateTime

def daysFromCivil : Nat :=
  let y := if d.month ≤ 2 then d.year - 1 else d.year
  let cycle := y / 400
  let yearOfCycle := y % 400
  let march := if 2 < d.month then d.month - 3 else d.month + 9
  let dayOfYear := (153 * march + 2) / 5 + d.day - 1
  let dayOfCycle := yearOfCycle * 365 + yearOfCycle / 4 - yearOfCycle / 100 + dayOfYear
  cycle * 146097 + dayOfCycle - 719468

def isLeap (y : Nat) : Bool := y % 4 = 0 && (y % 100 ≠ 0 || y % 400 = 0)

def weekday : Nat := (d.daysFromCivil + 4) % 7

def yearDay : Nat := d.daysFromCivil - daysFromCivil { d with month := 1, day := 1 }

def weekdayNames : List Text :=
  ["Sunday", "Monday", "Tuesday", "Wednesday", "Thursday", "Friday", "Saturday"]

def monthNames : List Text :=
  ["January", "February", "March", "April", "May", "June", "July", "August", "September", "October",
    "November", "December"]

def weekdayName : Text := weekdayNames.getD d.weekday []

def monthName : Text := monthNames.getD (d.month - 1) []

/-- Year and number of the week that the day belongs to: the first week of a year is the one with its
first Thursday, and weeks start on Monday. -/
def isoWeek : Nat × Nat :=
  let monday := (d.weekday + 6) % 7
  let week : Int := ((d.yearDay : Int) - monday + 10) / 7
  let daysIn (y : Nat) : Nat := if isLeap y then 366 else 365
  if week < 1 then
    let last := daysIn (d.year - 1)
    (d.year - 1, ((last + d.yearDay - monday + 10) / 7))
  else if week = 53 ∧ daysIn d.year - d.yearDay + monday < 4 then (d.year + 1, 1)
  else (d.year, week.toNat)

end DateTime

namespace TimeFormat

inductive Fill where
  | usual
  | nothing
  | blanks
  | zeros
deriving DecidableEq, Repr

structure Flags where
  fill : Fill := .usual
  upper : Bool := false
  swapped : Bool := false
  width : Option Nat := none

def number (f : Flags) (width : Nat) (usual : Char) (n : Nat) : Text :=
  let ds := Text.ofNat n
  let width := f.width.getD width
  match f.fill with
  | .nothing => ds
  | .blanks => List.replicate (width - ds.length) ' ' ++ ds
  | .zeros => List.replicate (width - ds.length) '0' ++ ds
  | .usual => List.replicate (width - ds.length) usual ++ ds

def word (f : Flags) (t : Text) : Text :=
  let t := if f.upper then t.map Char.toUpper else t
  let filler := if f.fill = .zeros then '0' else ' '
  List.replicate (f.width.getD 0 - t.length) filler ++ t

def flags : Flags → Text → Flags × Text
  | f, '-' :: rest => flags { f with fill := .nothing } rest
  | f, '_' :: rest => flags { f with fill := .blanks } rest
  | f, '0' :: rest => flags { f with fill := .zeros } rest
  | f, '^' :: rest => flags { f with upper := true } rest
  | f, '#' :: rest => flags { f with swapped := true } rest
  | f, '+' :: rest => flags { f with fill := .zeros } rest
  | f, t =>
    let ds := t.takeWhile Char.isDigit
    let f := if ds = [] then f
      else { f with width := some (digitsValue ds) }
    (f, t.drop ds.length)

def write (i : Instant) : Nat → Text → Text
  | 0, t => t
  | _, [] => []
  | fuel + 1, '%' :: rest =>
    let d := i.dateTime
    let (f, after) := flags {} rest
    let again (pattern : Text) : Text := write i fuel pattern
    match after with
    | [] => '%' :: rest
    | c :: after =>
      let (c, after) : Char × Text :=
        if c = 'E' ∨ c = 'O' then
          match after with
          | e :: more => (e, more)
          | [] => (c, [])
        else (c, after)
      let hour12 := if d.hour % 12 = 0 then 12 else d.hour % 12
      let shown : Text :=
        match c with
        | '%' => ['%']
        | 'n' => ['\n']
        | 't' => ['\t']
        | 'Y' => number f 4 '0' d.year
        | 'C' => number f 2 '0' (d.year / 100)
        | 'y' => number f 2 '0' (d.year % 100)
        | 'm' => number f 2 '0' d.month
        | 'd' => number f 2 '0' d.day
        | 'e' => number f 2 ' ' d.day
        | 'H' => number f 2 '0' d.hour
        | 'k' => number f 2 ' ' d.hour
        | 'I' => number f 2 '0' hour12
        | 'l' => number f 2 ' ' hour12
        | 'M' => number f 2 '0' d.minute
        | 'S' => number f 2 '0' d.second
        | 'N' =>
          let nanos := i.millis % 1000 * 1000000
          let ds := padded 9 nanos
          match f.width with
          | some w => ds.take w
          | none => ds
        | 's' => number f 0 '0' i.seconds
        | 'j' => number f 3 '0' (d.yearDay + 1)
        | 'u' => number f 1 '0' (if d.weekday = 0 then 7 else d.weekday)
        | 'w' => number f 1 '0' d.weekday
        | 'U' => number f 2 '0' ((d.yearDay + 7 - d.weekday) / 7)
        | 'W' => number f 2 '0' ((d.yearDay + 7 - (d.weekday + 6) % 7) / 7)
        | 'V' => number f 2 '0' d.isoWeek.2
        | 'G' => number f 4 '0' d.isoWeek.1
        | 'g' => number f 2 '0' (d.isoWeek.1 % 100)
        | 'q' => number f 1 '0' ((d.month + 2) / 3)
        | 'a' => word f (d.weekdayName.take 3)
        | 'A' => word f d.weekdayName
        | 'b' | 'h' => word f (d.monthName.take 3)
        | 'B' => word f d.monthName
        | 'p' => word f (if f.swapped then (if d.hour < 12 then "am" else "pm") else if d.hour < 12 then "AM" else "PM")
        | 'P' => word f (if d.hour < 12 then "am" else "pm")
        | 'Z' => word f (if f.swapped then "utc" else "UTC")
        | 'z' => "+0000"
        | 'F' => again "%Y-%m-%d"
        | 'T' | 'X' => again "%H:%M:%S"
        | 'D' | 'x' => again "%m/%d/%y"
        | 'R' => again "%H:%M"
        | 'r' => again "%I:%M:%S %p"
        | 'c' => again "%a %b %e %H:%M:%S %Y"
        | ':' =>
          match after with
          | 'z' :: _ => "+00:00"
          | ':' :: 'z' :: _ => "+00:00:00"
          | ':' :: ':' :: 'z' :: _ => "+00"
          | _ => "%:"
        | c => '%' :: rest.take (rest.length - after.length - 1) ++ [c]
      let after :=
        if c = ':' then
          match after with
          | 'z' :: more | ':' :: 'z' :: more | ':' :: ':' :: 'z' :: more => more
          | _ => after
        else after
      shown ++ write i fuel after
  | fuel + 1, c :: rest => c :: write i fuel rest

/-- How many patterns can be written for one: each letter stands for a few others at most. -/
def format (i : Instant) (pattern : Text) : Text := write i (pattern.length + 20) pattern

end TimeFormat

end Runbook
