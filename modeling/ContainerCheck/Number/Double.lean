namespace ContainerCheck.Number

/-- The number `mantissa * 2 ^ (power - 1074)`, zero or positive. -/
structure Double where
  mantissa : Nat
  power : Nat
deriving Repr, DecidableEq

namespace Double

def zero : Double := ⟨0, 0⟩

def maxPower : Nat := 2045

/-- The value of a fraction times `2 ^ 1074`, a whole number. -/
def scaled (d : Double) : Nat := d.mantissa * Nat.pow 2 d.power

/-- A quotient rounded to the nearest whole number, a tie to the even one. -/
def roundDiv (num den : Nat) : Nat :=
  let quotient := num / den
  let twice := 2 * (num % den)
  if twice < den then quotient
  else if twice = den then quotient + quotient % 2
  else quotient + 1

/-- The fraction nearest to `num / den`, or none if it is beyond the greatest. -/
def ofQuotient? (num den : Nat) : Option Double :=
  let scaled := num * Nat.pow 2 1074
  let power := (scaled / den).log2 - 52
  let mantissa := roundDiv scaled (den * Nat.pow 2 power)
  let found : Double :=
    if mantissa = Nat.pow 2 53 then ⟨Nat.pow 2 52, power + 1⟩ else ⟨mantissa, power⟩
  if found.power ≤ maxPower then some found else none

def ofNat (n : Nat) : Double := (ofQuotient? n 1).getD zero

def timesTen? (d : Double) (exponent : Nat) : Option Double :=
  let ten := (ofQuotient? (Nat.pow 10 exponent) 1).getD zero
  ofQuotient? (d.scaled * ten.scaled) (Nat.pow 2 2148)

def overTen (d : Double) (exponent : Nat) : Double :=
  let ten := (ofQuotient? (Nat.pow 10 exponent) 1).getD zero
  (ofQuotient? d.scaled ten.scaled).getD zero

end Double

end ContainerCheck.Number
