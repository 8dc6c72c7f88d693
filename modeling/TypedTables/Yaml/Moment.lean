import TypedTables.Yaml.Date
/-!
# Moments

A moment of a YAML file: a date, the letter `T` or blanks, and a time of day with seconds, which
may have a fraction. How far the clock is ahead of universal time may follow: `Z` for not at
all, or a sign and hours, with or without minutes. The two moments of one instant are told apart
when they are shown, but not when they are looked up.
-/
namespace TypedTables.Yaml

/-- A day and what a clock shows, which need not be on a calendar or a clock. -/
structure Moment where
  date : Date
  hour : Nat
  minute : Nat
  second : Nat
  microsecond : Nat
  /-- the minutes that the clock is ahead of universal time, if they are known -/
  ahead : Option Int
  deriving DecidableEq, Repr

namespace Moment

/-! ## Reading -/

/-- A number of at least `least` and at most `most` digits at the front of a text. -/
def takeNumber? (least most : Nat) (s : List Char) : Option (Nat × List Char) :=
  let digits := s.takeWhile Char.isDigit
  if least ≤ digits.length ∧ digits.length ≤ most then
    (Date.number? digits).map fun n => (n, s.dropWhile Char.isDigit)
  else none

/-- Drop a mark. -/
def dropMark? (mark : Char) : List Char → Option (List Char)
  | c :: s => if c = mark then some s else none
  | [] => none

def takeDate? (s : List Char) : Option (Date × List Char) := do
  let (year, s) ← takeNumber? 4 4 s
  let (month, s) ← takeNumber? 1 2 (← dropMark? '-' s)
  let (day, s) ← takeNumber? 1 2 (← dropMark? '-' s)
  some ({ year, month, day }, s)

/-- A space or a tab. -/
def isGap (c : Char) : Bool := c == ' ' || c == '\t'

/-- Drop what stands between a date and a time. -/
def dropGap? : List Char → Option (List Char)
  | c :: s =>
    if c = 'T' ∨ c = 't' then some s
    else if isGap c then some (s.dropWhile isGap)
    else none
  | [] => none

/-- The millionths that the digits of a fraction write; further digits are left out. -/
def microseconds? (digits : List Char) : Option Nat :=
  Date.number? ((digits.take 6).rightpad 6 '0')

/-- A fraction, if there is one. -/
def takeFraction? : List Char → Option (Nat × List Char)
  | '.' :: s => (microseconds? (s.takeWhile Char.isDigit)).map fun n => (n, s.dropWhile Char.isDigit)
  | s => some (0, s)

/-- Hours and maybe minutes, as minutes. -/
def hours? (s : List Char) : Option Int := do
  let (hours, s) ← takeNumber? 1 2 s
  match s with
  | [] => some (60 * hours)
  | s =>
    let (minutes, s) ← takeNumber? 2 2 (← dropMark? ':' s)
    if s = [] then some (60 * hours + minutes) else none

/-- How far a clock is ahead, at the end of a text. -/
def ahead? (s : List Char) : Option (Option Int) :=
  match s.dropWhile isGap with
  | [] => if s = [] then some none else none
  | ['Z'] => some (some 0)
  | '+' :: s => (hours? s).map some
  | '-' :: s => (hours? s).map fun minutes => some (-minutes)
  | _ => none

def ofText? (s : List Char) : Option Moment := do
  let (date, s) ← takeDate? s
  let (hour, s) ← takeNumber? 1 2 (← dropGap? s)
  let (minute, s) ← takeNumber? 2 2 (← dropMark? ':' s)
  let (second, s) ← takeNumber? 2 2 (← dropMark? ':' s)
  let (microsecond, s) ← takeFraction? s
  let ahead ← ahead? s
  some { date, hour, minute, second, microsecond, ahead }

/-! ## Clocks -/

def minutesInDay : Int := 24 * 60

/-- A number of minutes as a message shows it: in whole days and the seconds after them. -/
def shownMinutes (minutes : Int) : String :=
  let days := minutes.fdiv minutesInDay
  let seconds := 60 * minutes.fmod minutesInDay
  let parts :=
    (if days = 0 then [] else ["days=" ++ toString days]) ++
      if seconds = 0 then [] else ["seconds=" ++ toString seconds]
  "datetime.timedelta(" ++ (if parts = [] then "0" else ", ".intercalate parts) ++ ")"

/-- What is wrong with how far a clock is ahead: it is less than a day. -/
def aheadFault? (minutes : Int) : Option String :=
  if minutes.natAbs < minutesInDay then none
  else some ("offset must be a timedelta strictly between -timedelta(hours=24) and " ++
    "timedelta(hours=24), not " ++ shownMinutes minutes ++ ".")

/-- What is wrong with a time of day. -/
def timeFault? (m : Moment) : Option String :=
  if 23 < m.hour then some "hour must be in 0..23"
  else if 59 < m.minute then some "minute must be in 0..59"
  else if 59 < m.second then some "second must be in 0..59"
  else none

/-- What is wrong with a moment that is on no calendar or clock. -/
def fault? (m : Moment) : Option String :=
  ((m.ahead.bind aheadFault?).or m.date.fault?).or m.timeFault?

/-- The moment as a clock of universal time shows it, if the clock is known. -/
def universal (m : Moment) : Moment :=
  match m.ahead with
  | none => m
  | some ahead =>
    let minutes := (60 * m.hour + m.minute : Int) - ahead
    let date :=
      if minutes < 0 then m.date.previous
      else if minutesInDay ≤ minutes then m.date.next
      else m.date
    let minutes := (minutes.fmod minutesInDay).toNat
    { m with date, hour := minutes / 60, minute := minutes % 60, ahead := some 0 }

/-! ## Texts -/

/-- How far a clock is ahead, as it is written. -/
def aheadText (minutes : Int) : String :=
  (if minutes < 0 then "-" else "+") ++
    Date.padded 2 (minutes.natAbs / 60) ++ ":" ++ Date.padded 2 (minutes.natAbs % 60)

/-- A moment as it is written. -/
def text (m : Moment) : String :=
  m.date.text ++ " " ++
    ":".intercalate [Date.padded 2 m.hour, Date.padded 2 m.minute, Date.padded 2 m.second] ++
    (if m.microsecond = 0 then "" else "." ++ Date.padded 6 m.microsecond) ++
    (m.ahead.map aheadText).getD ""

/-- A clock as a message shows it. -/
def shownClock (minutes : Int) : String :=
  if minutes = 0 then "datetime.timezone.utc"
  else "datetime.timezone(" ++ shownMinutes minutes ++ ")"

/-- A moment as a message shows it; seconds and their fraction are left out if they are zero. -/
def shown (m : Moment) : String :=
  let fraction := if m.microsecond = 0 then [] else [m.microsecond]
  let seconds := if m.second = 0 ∧ fraction = [] then [] else m.second :: fraction
  let numbers := [m.date.year, m.date.month, m.date.day, m.hour, m.minute] ++ seconds
  let clock := (m.ahead.map fun minutes => "tzinfo=" ++ shownClock minutes).toList
  "datetime.datetime(" ++ ", ".intercalate (numbers.map toString ++ clock) ++ ")"

end Moment

end TypedTables.Yaml
