import TaxonomyPress.Number.Digits
import TaxonomyPress.Reader

/-!
# Dates and times

* `CalendarDate`, `ClockTime`, `ZoneOffset` : the parts of a moment, with what each may hold;
* `Moment` : a date, a time or both; with both there may be an offset too;
* `Moment.text` : the one written form of a moment, with a `T` before the time and no zero at the
  end of a fraction;
* `Moment.reader` : reads a moment. A blank may stand for the `T`, and letters have either case.
-/

namespace TaxonomyPress

structure CalendarDate where
  year : Nat
  month : Nat
  day : Nat
deriving DecidableEq

structure ClockTime where
  hour : Nat
  minute : Nat
  second : Nat
  nanosecond : Nat
deriving DecidableEq

/-- The distance of a local time from universal time. -/
inductive ZoneOffset where
  | universal
  | ahead (minutes : Nat)
  | behind (minutes : Nat)
deriving DecidableEq

inductive Moment where
  | date (date : CalendarDate)
  | time (time : ClockTime)
  | both (date : CalendarDate) (time : ClockTime) (offset : Option ZoneOffset)
deriving DecidableEq

/-- The number that exactly `width` digits write. -/
def digitsReader (width : Nat) : Reader Nat := do
  return ofDigits 10 (← Reader.exactly width isDecimalDigit)

namespace CalendarDate

def isLeapYear (year : Nat) : Bool := year % 4 == 0 && (year % 100 != 0 || year % 400 == 0)

/-- The number of days of a month. -/
def daysInMonth (year month : Nat) : Nat :=
  if month == 2 then (if isLeapYear year then 29 else 28)
  else if [4, 6, 9, 11].contains month then 30 else 31

/-- Whether the calendar has the date. -/
def isValid (d : CalendarDate) : Bool :=
  1 ≤ d.month && d.month ≤ 12 && 1 ≤ d.day && d.day ≤ daysInMonth d.year d.month

def text (d : CalendarDate) : String :=
  paddedText 4 d.year ++ "-" ++ paddedText 2 d.month ++ "-" ++ paddedText 2 d.day

def reader : Reader CalendarDate := do
  let year ← digitsReader 4
  Reader.char '-'
  let month ← digitsReader 2
  Reader.char '-'
  let date := { year, month, day := (← digitsReader 2) }
  Reader.check date.isValid
  return date

end CalendarDate

namespace ClockTime

/-- Whether a clock shows the time; a minute may have a leap second. -/
def isValid (t : ClockTime) : Bool := t.hour < 24 && t.minute < 60 && t.second ≤ 60

/-- The nanoseconds that the digits behind the point of the seconds stand for; digits behind the
ninth do not count. -/
def nanosecondsOf (digits : List Char) : Nat :=
  ofDigits 10 ((digits ++ List.replicate 9 '0').take 9)

/-- The point and the digits of a fraction of a second, if it is not zero. -/
def fractionText (nanosecond : Nat) : String :=
  if nanosecond == 0 then ""
  else
    let digits := (paddedDigits 9 nanosecond).reverse.dropWhile (· == '0')
    String.ofList ('.' :: digits.reverse)

def text (t : ClockTime) : String :=
  paddedText 2 t.hour ++ ":" ++ paddedText 2 t.minute ++ ":" ++ paddedText 2 t.second
    ++ fractionText t.nanosecond

def reader : Reader ClockTime := do
  let hour ← digitsReader 2
  Reader.char ':'
  let minute ← digitsReader 2
  Reader.char ':'
  let second ← digitsReader 2
  let nanosecond ←
    (do Reader.char '.'; return nanosecondsOf (← Reader.takeSome isDecimalDigit)) <|> return 0
  let time := { hour, minute, second, nanosecond }
  Reader.check time.isValid
  return time

end ClockTime

namespace ZoneOffset

/-- Hours and minutes. -/
def hoursText (minutes : Nat) : String := paddedText 2 (minutes / 60) ++ ":" ++ paddedText 2 (minutes % 60)

/-- The written form; no distance is written with a plus. -/
def text : ZoneOffset → String
  | universal => "Z"
  | ahead minutes => "+" ++ hoursText minutes
  | behind minutes => (if minutes == 0 then "+" else "-") ++ hoursText minutes

/-- Hours and minutes as minutes. -/
def minutes : Reader Nat := do
  let hour ← digitsReader 2
  Reader.char ':'
  let minute ← digitsReader 2
  Reader.check (hour < 24 && minute < 60)
  return hour * 60 + minute

def reader : Reader ZoneOffset := do
  match ← Reader.any with
  | 'Z' => return universal
  | 'z' => return universal
  | '+' => return ahead (← minutes)
  | '-' => return behind (← minutes)
  | _ => failure

end ZoneOffset

namespace Moment

def text : Moment → String
  | date d => d.text
  | time t => t.text
  | both d t offset => d.text ++ "T" ++ t.text ++ (offset.map ZoneOffset.text).getD ""

/-- A time behind a date, and its offset. -/
def timeOfDay (d : CalendarDate) : Reader Moment := do
  let _ ← Reader.satisfying fun c => c == 'T' || c == 't' || c == ' '
  let t ← ClockTime.reader
  let offset ← (some <$> ZoneOffset.reader) <|> pure none
  return both d t offset

def reader : Reader Moment :=
  (do
    let d ← CalendarDate.reader
    timeOfDay d <|> return date d)
  <|> (time <$> ClockTime.reader)

end Moment

end TaxonomyPress
