import ContainerCheck.Text.Digits

namespace ContainerCheck.Time

open ContainerCheck.Text

def nanosPerSecond : Nat := 1000000000

def seconds (n : Nat) : Nat := n * nanosPerSecond

def milliseconds (n : Nat) : Nat := n * 1000000

def trimZeros (digits : List Char) : List Char :=
  (digits.reverse.dropWhile (· == '0')).reverse

/-- `whole` and the fraction `part / 10 ^ places`, without a point if the fraction is zero. -/
def withFraction (whole part places : Nat) : List Char :=
  if part = 0 then decimal whole
  else decimal whole ++ '.' :: trimZeros (fixed places part)

/-- A span in the largest unit that it reaches, exact and without trailing zeros: `1.5s`, `100ms`. -/
def spanText (nanos : Nat) : String :=
  if nanosPerSecond ≤ nanos then
    String.ofList (withFraction (nanos / nanosPerSecond) (nanos % nanosPerSecond) 9) ++ "s"
  else if 1000000 ≤ nanos then
    String.ofList (withFraction (nanos / 1000000) (nanos % 1000000) 6) ++ "ms"
  else if 1000 ≤ nanos then
    String.ofList (withFraction (nanos / 1000) (nanos % 1000) 3) ++ "µs"
  else String.ofList (decimal nanos) ++ "ns"

end ContainerCheck.Time
