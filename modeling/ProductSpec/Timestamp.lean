/-
  Points in time in universal time, as a date and a time of the day. They are compared by the
  nanoseconds since the beginning of 1970, and written and read in the form of RFC 3339.
-/

namespace ProductSpec

/-- A date and a time of the day. -/
structure Timestamp where
  year : Nat
  month : Nat
  day : Nat
  hour : Nat
  minute : Nat
  second : Nat
  nanosecond : Nat
deriving DecidableEq, Repr, Inhabited

namespace Timestamp

/-- The nanoseconds of a second. -/
def perSecond : Nat := 1000000000

def isLeapYear (year : Nat) : Bool := year % 4 = 0 ∧ (year % 100 ≠ 0 ∨ year % 400 = 0)

def daysInMonth (year month : Nat) : Nat :=
  match month with
  | 4 | 6 | 9 | 11 => 30
  | 2 => if isLeapYear year then 29 else 28
  | _ => 31

/-- The last second of a minute may be a leap second. -/
def isValid (t : Timestamp) : Bool :=
  t.year < 10000 ∧ 1 ≤ t.month ∧ t.month ≤ 12 ∧ 1 ≤ t.day ∧ t.day ≤ daysInMonth t.year t.month ∧
    t.hour < 24 ∧ t.minute < 60 ∧ t.second ≤ 60 ∧ t.nanosecond < perSecond

/-- The days from the beginning of year zero to a date. -/
def dayNumber (year month day : Nat) : Nat :=
  365 * year + (year + 3) / 4 - (year + 99) / 100 + (year + 399) / 400 +
    (List.range (month - 1)).foldl (fun n m => n + daysInMonth year (m + 1)) 0 + (day - 1)

/-- The nanoseconds since the beginning of 1970. -/
def instant (t : Timestamp) : Int :=
  let days : Int := dayNumber t.year t.month t.day - dayNumber 1970 1 1
  (((days * 24 + t.hour) * 60 + t.minute) * 60 + t.second) * perSecond + t.nanosecond

/-- The year of a day. No year has more than 366 days. -/
def yearOfDay (day : Nat) : Nat :=
  let least := day / 366
  least + (List.range (day / 365 - least)).countP fun i => dayNumber (least + i + 1) 1 1 ≤ day

/-- The month of a day in a year. -/
def monthOfDay (year day : Nat) : Nat :=
  1 + (List.range 11).countP fun i => dayNumber year (i + 2) 1 ≤ day

/-- The point in time of an instant, at the earliest the beginning of year zero. -/
def ofInstant (nanoseconds : Int) : Timestamp :=
  let start : Int := dayNumber 1970 1 1 * 86400 * perSecond
  let n := (nanoseconds + start).toNat
  let seconds := n / perSecond
  let day := seconds / 86400
  let year := yearOfDay day
  let month := monthOfDay year day
  ⟨year, month, day - dayNumber year month 1 + 1, seconds / 3600 % 24, seconds / 60 % 60,
    seconds % 60, n % perSecond⟩

/-- The last instant of the year 9999, beyond which a time has no text of this form. -/
def lastInstant : Int := (dayNumber 10000 1 1 - dayNumber 1970 1 1 : Int) * 86400 * perSecond - 1

/-- What a clock shows; beyond the year 9999 it stands still. -/
def ofClock (nanoseconds : Int) : Timestamp := ofInstant (min nanoseconds lastInstant)

/-- A number that fills a width with leading zeros. -/
def digits (width n : Nat) : List Char :=
  let ds := Nat.toDigits 10 n
  List.replicate (width - ds.length) '0' ++ ds

/-- A fraction of a second in thousands, millions or billions, as far as it needs. -/
def fraction (nanosecond : Nat) : List Char :=
  if nanosecond = 0 then []
  else if nanosecond % 1000000 = 0 then '.' :: digits 3 (nanosecond / 1000000)
  else if nanosecond % 1000 = 0 then '.' :: digits 6 (nanosecond / 1000)
  else '.' :: digits 9 nanosecond

def dateText (t : Timestamp) : List Char :=
  digits 4 t.year ++ '-' :: (digits 2 t.month ++ '-' :: digits 2 t.day)

def timeText (t : Timestamp) : List Char :=
  digits 2 t.hour ++ ':' :: (digits 2 t.minute ++ ':' :: digits 2 t.second)

/-- The whole text, with universal time as `Z`. -/
def text (t : Timestamp) : String :=
  String.ofList (t.dateText ++ 'T' :: (t.timeText ++ (fraction t.nanosecond ++ ['Z'])))

/-- The text without the fraction of a second, for tables. -/
def shortText (t : Timestamp) : String := String.ofList (t.dateText ++ ' ' :: t.timeText)

def digitValue (c : Char) : Nat := c.toNat - 48

/-- A number of exactly so many digits in front of a text. -/
def readDigits : Nat → List Char → Option (Nat × List Char)
  | width, cs =>
    let ds := cs.take width
    if ds.length = width ∧ ds.all Char.isDigit then
      some (ds.foldl (fun n c => 10 * n + digitValue c) 0, cs.drop width)
    else none

def readMark (marks : List Char) : List Char → Option (List Char)
  | c :: rest => if c ∈ marks then some rest else none
  | [] => none

/-- An optional fraction of a second. Digits behind the ninth are dropped. -/
def readFraction : List Char → Option (Nat × List Char)
  | '.' :: rest =>
    let ds := rest.takeWhile Char.isDigit
    if ds.isEmpty then none
    else
      let nine := (ds ++ List.replicate 9 '0').take 9
      some (nine.foldl (fun n c => 10 * n + digitValue c) 0, rest.dropWhile Char.isDigit)
  | rest => some (0, rest)

/-- The minutes by which the clocks of a time zone are ahead. -/
def readZone : List Char → Option Int
  | ['Z'] | ['z'] => some 0
  | sign :: rest => do
    let (hours, rest) ← readDigits 2 rest
    let rest ← readMark [':'] rest
    let (minutes, rest) ← readDigits 2 rest
    if rest ≠ [] ∨ 60 ≤ minutes then none
    else if sign = '+' then some (60 * hours + minutes)
    else if sign = '-' ∨ sign = '−' then some (-(60 * hours + minutes : Int))
    else none
  | [] => none

/-- Reads a text as it is written, or one with the offset of a time zone. Between the date and the
time there may be a `t` or a blank. -/
def read? (s : String) : Option Timestamp := do
  let (year, rest) ← readDigits 4 s.toList
  let (month, rest) ← readDigits 2 (← readMark ['-'] rest)
  let (day, rest) ← readDigits 2 (← readMark ['-'] rest)
  let (hour, rest) ← readDigits 2 (← readMark ['T', 't', ' '] rest)
  let (minute, rest) ← readDigits 2 (← readMark [':'] rest)
  let (second, rest) ← readDigits 2 (← readMark [':'] rest)
  let (nanosecond, rest) ← readFraction rest
  let offset ← readZone rest
  let t : Timestamp := ⟨year, month, day, hour, minute, second, nanosecond⟩
  if !t.isValid ∨ 24 * 60 ≤ offset.natAbs then none
  else if offset = 0 then some t
  else some (ofInstant (t.instant - offset * 60 * perSecond))

example : (read? "1970-01-02T00:00:00.5Z").map instant = some 86400500000000 := by
  decide +kernel
example : (read? "2000-03-01T01:00:00+01:30").map text = some "2000-02-29T23:30:00Z" :=
  rfl
example : (read? "2024-02-29t23:59:60.123456z").map text =
    some "2024-02-29T23:59:60.123456Z" := rfl
example : read? "2023-02-29T00:00:00Z" = none := rfl
example : ofInstant (951868800 * perSecond) = ⟨2000, 3, 1, 0, 0, 0, 0⟩ := rfl
example : ofInstant (1735689599 * perSecond) = ⟨2024, 12, 31, 23, 59, 59, 0⟩ := rfl

end Timestamp

end ProductSpec
