import ContainerCheck.Time.Scan

namespace ContainerCheck.Time

open ContainerCheck.Text

def spacedNumber (width : Nat) (text : List Char) : Except StampFault (Nat × List Char) :=
  number width (dropBlanks text)

def boundedNumber (least most : Nat) (text : List Char) : Except StampFault (Nat × List Char) := do
  let (value, rest) ← spacedNumber 2 text
  if least ≤ value ∧ value ≤ most then return (value, rest) else .error .outOfRange

def spacedMark (c : Char) (text : List Char) : Except StampFault (List Char) :=
  oneOf (· == c) (dropBlanks text)

/-- A year of at most `width` digits that fits 32 bits. -/
def boundedYear (sign : Int) (width : Nat) (text : List Char) :
    Except StampFault (Int × List Char) := do
  let (value, rest) ← number width text
  let year := sign * value
  if -(Int.pow 2 31) ≤ year ∧ year < Int.pow 2 31 then return (year, rest) else .error .outOfRange

/-- A signed year has any number of digits, an unsigned one at most four. -/
def lenientYear (text : List Char) : Except StampFault (Int × List Char) :=
  match dropBlanks text with
  | '-' :: rest => boundedYear (-1) rest.length rest
  | '+' :: rest => boundedYear 1 rest.length rest
  | rest => boundedYear 1 4 rest

def lenientDate (text : List Char) : Except StampFault (Date × List Char) := do
  let (year, rest) ← lenientYear text
  let rest ← spacedMark '-' rest
  let (month, rest) ← boundedNumber 1 12 rest
  let rest ← spacedMark '-' rest
  let (day, rest) ← boundedNumber 1 31 rest
  return (⟨year, month, day⟩, rest)

def lenientClock (date : Date) (text : List Char) : Except StampFault (LocalTime × List Char) := do
  let (hour, rest) ← boundedNumber 0 23 text
  let rest ← spacedMark ':' rest
  let (minute, rest) ← boundedNumber 0 59 rest
  let rest ← spacedMark ':' rest
  let (second, rest) ← boundedNumber 0 60 rest
  let (nanos, rest) ← fraction rest
  return (⟨date, hour, minute, second, nanos⟩, rest)

/-- Between the hours and minutes of an offset, colons and blanks are all optional. -/
def looseSeparator (text : List Char) : Except StampFault (List Char) :=
  .ok (text.dropWhile fun c => c == ':' || isBlank c)

/-- An offset, or the letters `UTC` in any case. -/
def lenientOffset (text : List Char) : Except StampFault (Int × List Char) :=
  match text with
  | u :: t :: c :: rest =>
    if u.toLower = 'u' ∧ t.toLower = 't' ∧ c.toLower = 'c' then .ok (0, rest)
    else offset looseSeparator text
  | _ => offset looseSeparator text

def readLenient (text : List Char) : Except StampFault Instant := do
  let (date, rest) ← lenientDate text
  let rest ← oneOf (fun c => c == 't' || c == 'T' || c == ' ') rest
  let (time, rest) ← lenientClock date rest
  let (offset, rest) ← lenientOffset (dropBlanks rest)
  if dropBlanks rest ≠ [] then .error .tooLong
  resolve time offset

end ContainerCheck.Time
