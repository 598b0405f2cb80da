import AtomicCss.Number.Decimal

/-!
# The calendar

Dates are checked against the calendar in use since 1582, extended to all years. A moment is a time
of day on a date, as a clock shows it that may be some minutes ahead of universal time.
-/
namespace AtomicCss

structure Date where
  year : Nat
  month : Nat
  day : Nat
  deriving DecidableEq

structure Moment where
  date : Date
  hour : Nat
  minute : Nat
  second : Nat
  micro : Nat
  /-- How many minutes the clock is ahead of universal time, if that is known. -/
  offset : Option Int
  deriving DecidableEq

namespace Calendar

def isLeap (year : Nat) : Bool := year % 4 = 0 && (year % 100 ≠ 0 || year % 400 = 0)

def daysOf (year month : Nat) : Nat :=
  if month = 2 then (if isLeap year then 29 else 28)
  else if [4, 6, 9, 11].contains month then 30
  else if 1 ≤ month && month ≤ 12 then 31
  else 0

/-- Whether the calendar has a date. There is no year zero. -/
def hasDate (d : Date) : Bool := 1 ≤ d.year && 1 ≤ d.day && d.day ≤ daysOf d.year d.month

def dayCount (d : Date) : Nat :=
  let years := d.year - 1
  years * 365 + years / 4 - years / 100 + years / 400
    + ((List.range d.month).map (daysOf d.year)).foldl (· + ·) 0 + (d.day - 1)

/-- Whether a clock shows such a time. -/
def hasTime (m : Moment) : Bool := m.hour < 24 && m.minute < 60 && m.second < 60

end Calendar

/-- How a value with parts is shown in a message. -/
def shownParts (kind : String) (parts : List String) : String :=
  kind ++ "(" ++ ", ".intercalate parts ++ ")"

namespace Date

/-- For instance `2024-01-05`. -/
def text (d : Date) : String :=
  Decimal.padded 4 d.year ++ "-" ++ Decimal.padded 2 d.month ++ "-" ++ Decimal.padded 2 d.day

def parts (d : Date) : List String := [d.year, d.month, d.day].map Decimal.digits

def shown (d : Date) : String := shownParts "datetime.date" d.parts

end Date

namespace Moment

/-- The millionths of a second from the beginning of the year 1, by the clock of the moment. -/
def micros (m : Moment) : Nat :=
  (((Calendar.dayCount m.date * 24 + m.hour) * 60 + m.minute) * 60 + m.second) * 1000000 + m.micro

/-- Whether two moments are one. If both clocks are tied to universal time, that time decides, and
a clock that is tied to it never agrees with one that is not. -/
def isSame (m n : Moment) : Bool :=
  match m.offset, n.offset with
  | none, none => m.micros = n.micros
  | some a, some b => (m.micros : Int) - a * 60000000 = n.micros - b * 60000000
  | _, _ => false

/-- The time of day, with as many places of its fraction as are needed. -/
def clockText (m : Moment) : String :=
  ":".intercalate ([m.hour, m.minute, m.second].map (Decimal.padded 2))
    ++ (if m.micro = 0 then "" else "." ++ Decimal.padded 6 m.micro)

def offsetText (minutes : Int) : String :=
  (if minutes < 0 then "-" else "+") ++ Decimal.padded 2 (minutes.natAbs / 60) ++ ":"
    ++ Decimal.padded 2 (minutes.natAbs % 60)

/-- For instance `2024-01-05T10:30:00Z`. -/
def text (m : Moment) : String :=
  m.date.text ++ "T" ++ m.clockText
    ++ (match m.offset with
      | none => ""
      | some 0 => "Z"
      | some minutes => offsetText minutes)

/-- For instance `2024-01-05 10:30:00+00:00`. -/
def spoken (m : Moment) : String :=
  m.date.text ++ " " ++ m.clockText ++ ((m.offset.map offsetText).getD "")

/-- How an offset is shown in a message: in seconds, after a whole day back if it is negative. -/
def offsetShown (minutes : Int) : String :=
  let name := "datetime.timezone"
  if minutes = 0 then name ++ ".utc"
  else
    let seconds := "seconds=" ++ Decimal.digits ((minutes * 60) % 86400).toNat
    shownParts name
      [shownParts "datetime.timedelta" (if minutes < 0 then ["days=-1", seconds] else [seconds])]

/-- How a moment is shown in a message. Seconds are left out if they are zero. -/
def shown (m : Moment) : String :=
  let clock :=
    if m.micro ≠ 0 then [m.hour, m.minute, m.second, m.micro]
    else if m.second ≠ 0 then [m.hour, m.minute, m.second]
    else [m.hour, m.minute]
  shownParts "datetime.datetime" (m.date.parts ++ clock.map Decimal.digits
    ++ ((m.offset.map fun minutes => ["tzinfo=" ++ offsetShown minutes]).getD []))

end Moment
end AtomicCss
