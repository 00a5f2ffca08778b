import Runbook.TimeFormat

/-!
Points in time as people write them: a date, a time of day, or so much before or after another moment.
-/
namespace Runbook.DateText

structure Reading where
  date : Option (Nat × Nat × Nat) := none
  time : Option Nat := none
  millis : Nat := 0
  /-- How far the clock is ahead of universal time, in seconds. -/
  zone : Int := 0
  months : Int := 0
  seconds : Int := 0
  weekday : Option (Nat × Int) := none
  /-- The moment is told by a day, so that it starts at midnight. -/
  isDay : Bool := false

def signed? (t : Text) : Option Int :=
  match t with
  | '-' :: ds => (natural? ds).map fun n => -(n : Int)
  | '+' :: ds => (natural? ds).map fun n => (n : Int)
  | ds => (natural? ds).map fun n => (n : Int)

def lower (t : Text) : Text := t.map Char.toLower

/-- The index of the name that a word is, in full or by its first three letters. -/
def nameIndex? (names : List Text) (t : Text) : Option Nat :=
  names.findIdx? fun n => lower n = lower t || (t.length = 3 && lower (n.take 3) = lower t)

def isDate (year month day : Nat) : Bool :=
  let last := if month = 2 then (if DateTime.isLeap year then 29 else 28) else if month ∈ [4, 6, 9, 11] then 30 else 31
  1970 ≤ year && 1 ≤ month && month ≤ 12 && 1 ≤ day && day ≤ last

def date? (t : Text) : Option (Nat × Nat × Nat) :=
  let checked (y m d : Nat) : Option (Nat × Nat × Nat) := if isDate y m d then some (y, m, d) else none
  match (t.splitOn '-').map natural? with
  | [some y, some m, some d] => checked y m d
  | _ =>
    match (t.splitOn '/').map natural? with
    | [some a, some b, some c] => if 31 < a then checked a b c else checked c a b
    | _ =>
      match natural? t with
      | some n => if t.length = 8 then checked (n / 10000) (n / 100 % 100) (n % 100) else none
      | none => none

def offset? (t : Text) : Option Int :=
  match (t.splitOn ':').map natural? with
  | [some h, some m] => some (h * 3600 + m * 60)
  | [some n] =>
    if t.length ≤ 2 then some (n * 3600) else if t.length = 4 then some (n / 100 * 3600 + n % 100 * 60) else none
  | _ => none

def namedZone? (t : Text) : Option Int :=
  match String.ofList (lower t) with
  | "z" | "utc" | "gmt" | "ut" | "wet" => some 0
  | "west" | "bst" | "cet" | "met" => some 3600
  | "cest" | "mest" | "eet" => some 7200
  | "eest" | "msk" => some 10800
  | "jst" => some 32400
  | "est" | "cdt" => some (-18000)
  | "edt" => some (-14400)
  | "cst" | "mdt" => some (-21600)
  | "mst" | "pdt" => some (-25200)
  | "pst" => some (-28800)
  | _ => none

def half? (t : Text) : Option Bool :=
  match String.ofList (lower (t.filter (· ≠ '.'))) with
  | "am" => some false
  | "pm" => some true
  | _ => none

def inHalf (isSecond : Bool) (seconds : Nat) : Option Nat :=
  let hour := seconds / 3600
  if 1 ≤ hour ∧ hour ≤ 12 then some (seconds % 3600 + (hour % 12 + if isSecond then 12 else 0) * 3600) else none

def signedZone? : Text → Option Int
  | '+' :: z => offset? z
  | '-' :: z => (offset? z).map (-·)
  | _ => none

def time? (t : Text) : Option (Nat × Nat × Option Int) :=
  let body := t.takeWhile fun c => c.isDigit || c == ':' || c == '.'
  let rest := t.drop body.length
  let (whole, part) := (Text.cutAt (· == '.') body).getD (body, [])
  let millis := ((natural? ((part ++ "000").take 3)).getD 0)
  match (whole.splitOn ':').map natural?, half? rest with
  | [some h], some isSecond => (inHalf isSecond (h * 3600)).map fun s => (s, 0, none)
  | hs, half =>
    let seconds :=
      match hs with
      | [some h, some m] => if h < 24 ∧ m < 60 then some (h * 3600 + m * 60) else none
      | [some h, some m, some s] => if h < 24 ∧ m < 60 ∧ s ≤ 60 then some (h * 3600 + m * 60 + s) else none
      | _ => none
    seconds.bind fun s =>
      match half with
      | some isSecond => (inHalf isSecond s).map fun s => (s, millis, none)
      | none =>
        if rest = [] then some (s, millis, none)
        else ((signedZone? rest).or (namedZone? rest)).map fun z => (s, millis, some z)

/-- What stands behind a time of day: a half of the day, or else a zone. Gives the time and the zone, and
the words that follow. -/
def behindTime (seconds : Nat) : List Text → Option (Nat × Option Int × List Text)
  | [] => some (seconds, none, [])
  | w :: rest =>
    match half? w with
    | some isSecond => (inHalf isSecond seconds).map fun s => (s, none, rest)
    | none =>
      match signedZone? w, w, rest with
      | some z, _, _ => some (seconds, some z, rest)
      | none, [sign], d :: more =>
        match signedZone? (sign :: d) with
        | some z => some (seconds, some z, more)
        | none => some (seconds, none, w :: rest)
      | none, _, _ => some (seconds, none, w :: rest)

def shift? (count : Int) (unit : Text) (r : Reading) : Option Reading :=
  let unit := lower unit
  let unit := if 1 < unit.length ∧ unit.getLast? = some 's' then unit.dropLast else unit
  match String.ofList unit with
  | "year" => some { r with months := r.months + 12 * count }
  | "month" => some { r with months := r.months + count }
  | "fortnight" => some { r with seconds := r.seconds + 1209600 * count }
  | "week" => some { r with seconds := r.seconds + 604800 * count }
  | "day" => some { r with seconds := r.seconds + 86400 * count }
  | "hour" => some { r with seconds := r.seconds + 3600 * count }
  | "minute" | "min" => some { r with seconds := r.seconds + 60 * count }
  | "second" | "sec" => some { r with seconds := r.seconds + count }
  | _ => none

def isAgo (t : Text) : Bool := lower t = "ago"

/-- Reads words from left to right; `fuel` is more than their number. -/
def words : Nat → List Text → Reading → Option Reading
  | 0, _, _ => none
  | _, [], r => some r
  | fuel + 1, w :: rest, r =>
    match String.ofList (lower w) with
    | "now" | "today" => words fuel rest r
    | "yesterday" => words fuel rest { r with seconds := r.seconds - 86400 }
    | "tomorrow" => words fuel rest { r with seconds := r.seconds + 86400 }
    | "midnight" => words fuel rest { r with time := some 0 }
    | "noon" => words fuel rest { r with time := some 43200 }
    | "next" | "last" =>
      let count : Int := if lower w = "next" then 1 else -1
      match rest with
      | unit :: more =>
        match shift? count unit r with
        | some r => words fuel more r
        | none =>
          (nameIndex? DateTime.weekdayNames unit).bind fun d =>
            words fuel more { r with weekday := some (d, count), isDay := true }
      | [] => none
    | _ =>
      match date? w with
      | some d => words fuel rest { r with date := some d, isDay := true }
      | none =>
        let withTime (r : Reading) (s ms : Nat) (z : Option Int) : Option Reading :=
          match z with
          | some z => words fuel rest { r with time := some s, millis := ms, zone := z }
          | none =>
            (behindTime s rest).bind fun (s, z, rest) =>
              words fuel rest { r with time := some s, millis := ms, zone := z.getD r.zone }
        match time? w with
        | some (s, ms, z) => withTime r s ms z
        | none =>
          match (Text.cutAt (fun c => c == 'T' || c == 't') w).bind fun (a, b) =>
              (date? a).bind fun d => (time? b).map fun t => (d, t) with
          | some (d, s, ms, z) => withTime { r with date := some d, isDay := true } s ms z
          | none =>
            match nameIndex? DateTime.weekdayNames w, nameIndex? DateTime.monthNames w, signed? w with
            | some d, _, _ => words fuel rest { r with weekday := some (d, 0), isDay := true }
            | _, some m, _ =>
              match rest with
              | d :: y :: more =>
                let d := d.filter (· ≠ ',')
                match natural? d, natural? y with
                | some d, some y =>
                  if isDate y (m + 1) d then words fuel more { r with date := some (y, m + 1, d), isDay := true }
                  else none
                | _, _ => none
              | _ => none
            | _, _, some n =>
              match rest with
              | name :: y :: more =>
                if isAgo y then (shift? (-n) name r).bind (words fuel more)
                else
                  match nameIndex? DateTime.monthNames name, natural? y with
                  | some m, some y =>
                    if isDate y (m + 1) n.toNat then
                      words fuel more { r with date := some (y, m + 1, n.toNat), isDay := true }
                    else none
                  | _, _ => (shift? n name r).bind (words fuel (y :: more))
              | [unit] => (shift? n unit r).bind (words fuel [])
              | [] => none
            | none, none, none =>
              match namedZone? w, shift? 1 w r with
              | some z, _ => words fuel rest { r with zone := z }
              | none, some r => words fuel rest r
              | none, none =>
              -- A number and its unit may stand together.
              let digits := w.takeWhile fun c => c.isDigit || c == '+' || c == '-'
              let unit := w.drop digits.length
              match signed? digits with
              | some n =>
                match rest with
                | w :: more =>
                  if isAgo w then (shift? (-n) unit r).bind (words fuel more)
                  else (shift? n unit r).bind (words fuel (w :: more))
                | [] => (shift? n unit r).bind (words fuel [])
              | none => none

def moment (now : Instant) (r : Reading) : Option Instant :=
  let today := now.dateTime
  let (y, m, d) := r.date.getD (today.year, today.month, today.day)
  let monthCount : Int := (y : Int) * 12 + (m - 1 : Nat) + r.months
  let y := (monthCount / 12).toNat
  let m := (monthCount % 12).toNat + 1
  let days : Nat := DateTime.daysFromCivil ⟨y, m, 1, 0, 0, 0⟩ + (d - 1)
  let days : Int :=
    match r.weekday with
    | some (w, count) =>
      let current := (days + 4) % 7
      let ahead : Int := ((w + 7 - current) % 7 : Nat)
      let further : Int := if count = 0 then 0 else if count < 0 then -7 else if ahead = 0 then 7 else 0
      days + ahead + further
    | none => days
  let usual : Nat := if r.isDay then 0 else today.hour * 3600 + today.minute * 60 + today.second
  let seconds : Int := days * 86400 + (r.time.getD usual : Nat) - r.zone + r.seconds
  let millis := if r.time.isSome ∨ r.isDay then r.millis else now.millis % 1000
  if 0 ≤ seconds then some ⟨seconds.toNat * 1000 + millis⟩ else none

def parse? (now : Instant) (t : Text) : Option Instant :=
  let parts := (t.splitOnP fun c => c == ' ' || c == '\t').filter (· ≠ [])
  match parts with
  | [] => moment now { isDay := true }
  | [w] =>
    match w with
    | '@' :: ds =>
      let (whole, part) := (Text.cutAt (· == '.') ds).getD (ds, [])
      (natural? whole).map fun n => ⟨n * 1000 + (natural? ((part ++ "000").take 3)).getD 0⟩
    | w => (words 3 [w] {}).bind (moment now)
  | ws => (words (ws.length + 1) ws {}).bind (moment now)

end Runbook.DateText
