import ContainerCheck.Text.Blank
import ContainerCheck.Text.Digits
import ContainerCheck.Text.Utf8
import ContainerCheck.Time.Instant

namespace ContainerCheck.Time

open ContainerCheck.Text

inductive StampFault
  | tooShort
  | tooLong
  | invalid
  | outOfRange
  | impossible
deriving Repr, DecidableEq

def StampFault.message : StampFault → String
  | .tooShort => "premature end of input"
  | .tooLong => "trailing input"
  | .invalid => "input contains invalid characters"
  | .outOfRange => "input is out of range"
  | .impossible => "no possible date and time matching input"

def oneOf (kind : Char → Bool) : List Char → Except StampFault (List Char)
  | [] => .error .tooShort
  | c :: rest => if kind c then .ok rest else .error .invalid

def number (width : Nat) : List Char → Except StampFault (Nat × List Char)
  | [] => .error .tooShort
  | c :: rest =>
    if c.isDigit then
      let digits := ((c :: rest).takeWhile Char.isDigit).take width
      .ok (digitsValue digits, (c :: rest).drop digits.length)
    else .error .invalid

/-- A fraction of a second in nanoseconds, if one follows; digits past the ninth are dropped. -/
def fraction : List Char → Except StampFault (Nat × List Char)
  | '.' :: rest =>
    match number 9 rest with
    | .error fault => .error fault
    | .ok (value, after) =>
      .ok (value * Nat.pow 10 (9 - (rest.length - after.length)), after.dropWhile Char.isDigit)
  | rest => .ok (0, rest)

/-- Whether a character is a sign of an offset, and a negative one: the last is the minus sign. -/
def offsetSign? (c : Char) : Option Bool :=
  if c = '+' then some false
  else if c = '-' ∨ c = '\u2212' then some true
  else none

/-- Two digits, the first at most `5` if `limited`. A text of fewer than two bytes has ended. -/
def twoDigits (limited : Bool) (text : List Char) : Except StampFault (Nat × List Char) :=
  if byteLength text < 2 then .error .tooShort
  else
    match text with
    | a :: b :: rest =>
      if a.isDigit && b.isDigit then
        if limited && '5' < a then .error .outOfRange else .ok (digitsValue [a, b], rest)
      else .error .invalid
    | _ => .error .invalid

/-- An offset from universal time in seconds; `separator` reads what stands before its minutes. -/
def offset (separator : List Char → Except StampFault (List Char)) :
    List Char → Except StampFault (Int × List Char)
  | [] => .error .tooShort
  | c :: rest =>
    if c = 'Z' ∨ c = 'z' then .ok (0, rest)
    else
      match offsetSign? c with
      | none => .error .invalid
      | some negative => do
        let (hours, rest) ← twoDigits false rest
        let rest ← separator rest
        let (minutes, rest) ← twoDigits true rest
        let span : Int := (hours * 3600 + minutes * 60 : Nat)
        return (if negative then -span else span, rest)

/-- The instant of a local time at an offset, if the calendar and the range of years have it. -/
def resolve (t : LocalTime) (offset : Int) : Except StampFault Instant :=
  if ¬ (t.date.exists && yearInRange t.date.year) then .error .outOfRange
  else if ¬ (-secondsPerDay < offset ∧ offset < secondsPerDay) then .error .outOfRange
  else if (t.toInstant offset).inRange then .ok (t.toInstant offset)
  else .error .impossible

end ContainerCheck.Time
