import ContainerCheck.Time.Scan

namespace ContainerCheck.Time

open ContainerCheck.Text

def fullNumber (width : Nat) (text : List Char) : Except StampFault (Nat × List Char) :=
  let digits := text.take width
  if digits.length = width ∧ digits.all Char.isDigit then .ok (digitsValue digits, text.drop width)
  else .error .invalid

/-- One character of a kind, where a missing one is wrong like any other. -/
def mark (kind : Char → Bool) : List Char → Except StampFault (List Char)
  | [] => .error .invalid
  | c :: rest => if kind c then .ok rest else .error .invalid

def isDateEnd (c : Char) : Bool := c == 't' || c == 'T' || c == ' '

def strictDate (text : List Char) : Except StampFault (Date × List Char) := do
  let (year, rest) ← fullNumber 4 text
  let rest ← mark (· == '-') rest
  let (month, rest) ← fullNumber 2 rest
  let rest ← mark (· == '-') rest
  let (day, rest) ← fullNumber 2 rest
  return (⟨year, month, day⟩, rest)

def strictClock (date : Date) (text : List Char) : Except StampFault (LocalTime × List Char) := do
  let (hour, rest) ← fullNumber 2 text
  let rest ← mark (· == ':') rest
  let (minute, rest) ← fullNumber 2 rest
  let rest ← mark (· == ':') rest
  let (second, rest) ← fullNumber 2 rest
  let (nanos, rest) ← fraction rest
  if hour ≤ 23 ∧ minute ≤ 59 ∧ second ≤ 60 then
    return (⟨date, hour, minute, second, nanos⟩, rest)
  else .error .outOfRange

def readStrict (text : List Char) : Except StampFault Instant := do
  if byteLength text < 19 then .error .tooShort
  let (date, rest) ← strictDate text
  if ¬ date.exists then .error .outOfRange
  let rest ← mark isDateEnd rest
  let (time, rest) ← strictClock date rest
  let (offset, rest) ← offset (oneOf (· == ':')) rest
  if rest ≠ [] then .error .tooLong
  resolve time offset

end ContainerCheck.Time
