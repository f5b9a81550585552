import ContainerCheck.Text.Digits
import ContainerCheck.Time.Date
import ContainerCheck.Time.Duration

namespace ContainerCheck.Time

open ContainerCheck.Text

structure Instant where
  /-- Seconds since 1 January 1970. -/
  seconds : Int
  /-- Nanoseconds in the second, from a billion on in a leap second. -/
  nanos : Nat
deriving Repr, DecidableEq

def secondsPerDay : Int := 86400

def firstYear : Int := -262143

def lastYear : Int := 262142

def yearInRange (year : Int) : Bool := firstYear ≤ year && year ≤ lastYear

/-- A local date and time of day. The second 60 is a leap second. -/
structure LocalTime where
  date : Date
  hour : Nat
  minute : Nat
  second : Nat
  nanos : Nat
deriving Repr, DecidableEq

/-- The instant of a local time that is `offset` seconds ahead of universal time. -/
def LocalTime.toInstant (t : LocalTime) (offset : Int) : Instant :=
  let second := if t.second = 60 then 59 else t.second
  let nanos := if t.second = 60 then t.nanos + nanosPerSecond else t.nanos
  ⟨t.date.toDays * secondsPerDay + (t.hour * 3600 + t.minute * 60 + second : Nat) - offset, nanos⟩

def Instant.days (i : Instant) : Int := i.seconds / secondsPerDay

def Instant.inRange (i : Instant) : Bool := yearInRange (Date.ofDays i.days).year

def Instant.toLocal (i : Instant) : LocalTime :=
  let second := (i.seconds % secondsPerDay).toNat
  let leap := nanosPerSecond ≤ i.nanos
  ⟨Date.ofDays i.days, second / 3600, second / 60 % 60,
    second % 60 + if leap then 1 else 0,
    if leap then i.nanos - nanosPerSecond else i.nanos⟩

/-- A year as four digits, or with a sign and at least four digits outside 0 to 9999. -/
def yearText (year : Int) : List Char :=
  if 0 ≤ year ∧ year ≤ 9999 then fixed 4 year.toNat
  else
    (if year < 0 then '-' else '+') ::
      if year.natAbs ≤ 9999 then fixed 4 year.natAbs else decimal year.natAbs

inductive Precision
  /-- The fewest of 0, 3, 6 and 9 that lose nothing. -/
  | shortest
  /-- Always nine. -/
  | nine

def fractionText (precision : Precision) (nanos : Nat) : List Char :=
  match precision with
  | .nine => '.' :: fixed 9 nanos
  | .shortest =>
    if nanos = 0 then []
    else if nanos % 1000000 = 0 then '.' :: fixed 3 (nanos / 1000000)
    else if nanos % 1000 = 0 then '.' :: fixed 6 (nanos / 1000)
    else '.' :: fixed 9 nanos

def Instant.text (i : Instant) (precision : Precision) : List Char :=
  let t := i.toLocal
  yearText t.date.year ++ '-' :: fixed 2 t.date.month ++ '-' :: fixed 2 t.date.day ++
    'T' :: fixed 2 t.hour ++ ':' :: fixed 2 t.minute ++ ':' :: fixed 2 t.second ++
    fractionText precision t.nanos ++ ['Z']

end ContainerCheck.Time
