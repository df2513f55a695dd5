import Custody.Yaml.Cursor

/-!
# Dates and times

A timestamp is a date, and maybe a time on it, and maybe the offset of that time's zone.
`readTimestamp` reads the numbers of one; `Timestamp.reason?` says what is wrong with them, if there
is no such date or time. Dates count as days, times as microseconds, from the first day of the year
one on.
-/

namespace Custody.Yaml

/-- The offset of a zone from universal time. -/
structure Zone where
  /-- Whether the zone is behind. -/
  behind : Bool
  /-- The hours. -/
  hours : Nat
  /-- The minutes beyond the hours. -/
  minutes : Nat
deriving DecidableEq, Repr

/-- A time on a day. -/
structure TimeOfDay where
  /-- The hour. -/
  hour : Nat
  /-- The minute. -/
  minute : Nat
  /-- The second. -/
  second : Nat
  /-- The microseconds beyond the second. -/
  micros : Nat
  /-- The zone, if there is one. -/
  zone : Option Zone
deriving DecidableEq, Repr

/-- A date, and maybe a time on it. -/
structure Timestamp where
  /-- The year. -/
  year : Nat
  /-- The month, from one on. -/
  month : Nat
  /-- The day of the month, from one on. -/
  day : Nat
  /-- The time. -/
  time : Option TimeOfDay
deriving DecidableEq, Repr

/-! ## Reading -/

/-- The number that decimal digits spell. -/
def ofDecimalDigits (digits : List Char) : Nat :=
  digits.foldl (fun n c => 10 * n + (c.toNat - '0'.toNat)) 0

/-- A number of at least `least` and at most `most` digits at the front of a text, and what is
left. -/
def readNumber (least most : Nat) (text : List Char) : Option (Nat × List Char) :=
  let digits := (text.take most).takeWhile Char.isDigit
  if digits.length < least then none
  else some (ofDecimalDigits digits, text.drop digits.length)

/-- What is left of a text after the given character at its front. -/
def dropChar (c : Char) : List Char → Option (List Char)
  | d :: rest => if c == d then some rest else none
  | [] => none

/-- The offset of a zone, up to the end: nothing, the letter that stands for none, or hours and
minutes. -/
def readZone (text : List Char) : Option (Option Zone) :=
  match text.dropWhile isBlank with
  | [] => if text.isEmpty then some none else none
  | ['Z'] => some (some ⟨false, 0, 0⟩)
  | sign :: rest =>
    if sign == '+' || sign == '-' then do
      let (hours, rest) ← readNumber 1 2 rest
      match rest with
      | [] => some (some ⟨sign == '-', hours, 0⟩)
      | ':' :: rest =>
        match readNumber 2 2 rest with
        | some (minutes, []) => some (some ⟨sign == '-', hours, minutes⟩)
        | _ => none
      | _ => none
    else none

/-- The microseconds that the digits of a fraction give; digits after the sixth do not count. -/
def microsOf (fraction : List Char) : Nat :=
  let digits := fraction.take 6
  ofDecimalDigits (digits ++ List.replicate (6 - digits.length) '0')

/-- A time of day and what follows it, up to the end. -/
def readTime (text : List Char) : Option TimeOfDay := do
  let (hour, rest) ← readNumber 1 2 text
  let rest ← dropChar ':' rest
  let (minute, rest) ← readNumber 2 2 rest
  let rest ← dropChar ':' rest
  let (second, rest) ← readNumber 2 2 rest
  let (fraction, rest) := match rest with
    | '.' :: digits => digits.span Char.isDigit
    | _ => ([], rest)
  let zone ← readZone rest
  some { hour, minute, second, micros := microsOf fraction, zone }

/-- The timestamp that a text spells. A month or day of one digit needs a time after it, unless
`loose` says otherwise. -/
def readTimestamp (loose : Bool) (text : List Char) : Option Timestamp := do
  let (year, rest) ← readNumber 4 4 text
  let rest ← dropChar '-' rest
  let (month, rest) ← readNumber 1 2 rest
  let rest ← dropChar '-' rest
  let (day, rest) ← readNumber 1 2 rest
  match rest with
  | [] =>
    if loose || text.length == 10 then some { year, month, day, time := none } else none
  | c :: after =>
    if c == 'T' || c == 't' then do
      let time ← readTime after
      some { year, month, day, time := some time }
    else if isBlank c then do
      let time ← readTime (after.dropWhile isBlank)
      some { year, month, day, time := some time }
    else none

/-! ## The calendar -/

/-- Whether a year has a day more. -/
def isLeapYear (year : Nat) : Bool :=
  year % 4 = 0 ∧ (year % 100 ≠ 0 ∨ year % 400 = 0)

/-- The number of days in a month. -/
def daysInMonth (year month : Nat) : Nat :=
  if month = 2 then if isLeapYear year then 29 else 28
  else if month = 4 ∨ month = 6 ∨ month = 9 ∨ month = 11 then 30
  else 31

/-- The number of days before a year, from the year one on. -/
def daysBeforeYear (year : Nat) : Nat :=
  let past := year - 1
  365 * past + past / 4 - past / 100 + past / 400

/-- The wording for an offset of a day or more, in minutes. -/
def offsetReason (behind : Bool) (minutes : Nat) : String :=
  let days := minutes / 1440
  let seconds := minutes % 1440 * 60
  let (days, seconds) : Int × Nat :=
    if !behind then (days, seconds)
    else if seconds = 0 then (-(Int.ofNat days), 0)
    else (-(Int.ofNat days) - 1, 86400 - seconds)
  "offset must be a timedelta strictly between -timedelta(hours=24) and timedelta(hours=24), " ++
    "not datetime.timedelta(days=" ++ toString days ++
    (if seconds = 0 then "" else ", seconds=" ++ toString seconds) ++ ")."

namespace Zone

/-- The minutes of an offset. -/
def size (z : Zone) : Nat :=
  60 * z.hours + z.minutes

/-- What is wrong with an offset, if anything is: it has to be less than a day. -/
def reason? (z : Zone) : Option String :=
  if 1440 ≤ z.size then some (offsetReason z.behind z.size) else none

end Zone

namespace TimeOfDay

/-- What is wrong with a time, if anything is. -/
def reason? (t : TimeOfDay) : Option String :=
  if 23 < t.hour then some "hour must be in 0..23"
  else if 59 < t.minute then some "minute must be in 0..59"
  else if 59 < t.second then some "second must be in 0..59"
  else none

/-- The microseconds since the start of the day. -/
def sinceMidnight (t : TimeOfDay) : Nat :=
  1000000 * (3600 * t.hour + 60 * t.minute + t.second) + t.micros

end TimeOfDay

namespace Timestamp

/-- What is wrong with a date, if anything is. -/
def dateReason? (t : Timestamp) : Option String :=
  if t.year = 0 then some "year 0 is out of range"
  else if t.month = 0 ∨ 12 < t.month then some "month must be in 1..12"
  else if t.day = 0 ∨ daysInMonth t.year t.month < t.day then
    some "day is out of range for month"
  else none

/-- What is wrong with a date or time, if anything is. The zone is looked at first. -/
def reason? (t : Timestamp) : Option String :=
  match t.time with
  | none => t.dateReason?
  | some time => time.zone.bind Zone.reason? <|> t.dateReason? <|> time.reason?

/-- The number of days before the date. -/
def dayNumber (t : Timestamp) : Nat :=
  let months := (List.range t.month).drop 1
  let before := months.foldl (fun n month => n + daysInMonth t.year month) (daysBeforeYear t.year)
  before + (t.day - 1)

/-- The microseconds before a time on the date. -/
def microsBefore (t : Timestamp) (time : TimeOfDay) : Nat :=
  86400000000 * t.dayNumber + time.sinceMidnight

/-- The microseconds before a time on the date in universal time. -/
def instant (t : Timestamp) (time : TimeOfDay) (zone : Zone) : Int :=
  let offset := Int.ofNat (60000000 * zone.size)
  Int.ofNat (t.microsBefore time) + if zone.behind then offset else -offset

end Timestamp

end Custody.Yaml
