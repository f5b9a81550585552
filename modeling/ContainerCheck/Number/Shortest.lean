import ContainerCheck.Number.Double
import ContainerCheck.Text.Digits

namespace ContainerCheck.Number

open ContainerCheck.Text

/-- Digits before a power of ten: `digits * 10 ^ exponent`. -/
structure Decimal where
  digits : Nat
  exponent : Int
deriving Repr, DecidableEq

/-- The power of ten of the first digit of `num / den`, searched downward from `exponent`. -/
def leadingExponent (num den : Nat) : Nat → Int → Int
  | 0, exponent => exponent
  | fuel + 1, exponent =>
    if den * Nat.pow 10 exponent.toNat ≤ num * Nat.pow 10 (-exponent).toNat then exponent
    else leadingExponent num den fuel (exponent - 1)

/--
Four times the value and the ends of the interval that rounds to it, in units of `2 ^ -1076`, and
whether the ends belong to it.
-/
def Double.interval (d : Double) : Nat × Nat × Nat × Bool :=
  let unit := Nat.pow 2 d.power
  let below := if d.mantissa = Nat.pow 2 52 ∧ 0 < d.power then 1 else 2
  (4 * d.scaled, 4 * d.scaled - below * unit, 4 * d.scaled + 2 * unit, d.mantissa % 2 == 0)

def Double.accepts (d : Double) (digits : Nat) (exponent : Int) : Bool :=
  let (_, low, high, closed) := d.interval
  let here := digits * Nat.pow 10 exponent.toNat * Nat.pow 2 1076
  let scale := Nat.pow 10 (-exponent).toNat
  if closed then low * scale ≤ here && here ≤ high * scale
  else low * scale < here && here < high * scale

/-- The neighbour of the fraction on a decimal grid that rounds to it, the nearer of two. -/
def Double.onGrid? (d : Double) (exponent : Int) : Option Nat :=
  let num := 4 * d.scaled * Nat.pow 10 (-exponent).toNat
  let den := Nat.pow 2 1076 * Nat.pow 10 exponent.toNat
  let down := num / den
  match d.accepts down exponent && down != 0, d.accepts (down + 1) exponent with
  | true, true => some (Double.roundDiv num den)
  | true, false => some down
  | false, true => some (down + 1)
  | false, false => none

/-- The first grid, from coarse to fine, with a hit. -/
def Double.search (d : Double) : Nat → Int → Decimal
  | 0, exponent => ⟨0, exponent⟩
  | fuel + 1, exponent =>
    match d.onGrid? exponent with
    | some digits => ⟨digits, exponent⟩
    | none => d.search fuel (exponent - 1)

def Double.shortest (d : Double) : Decimal :=
  if d.mantissa = 0 then ⟨0, 0⟩
  else d.search 18 (leadingExponent d.scaled (Nat.pow 2 1074) 640 309)

def splitZeros (digits : List Char) : List Char × Nat :=
  let kept := (digits.reverse.dropWhile (· == '0')).reverse
  (kept, digits.length - kept.length)

/--
A fraction as text: positional with at least one place behind the point when the first digit stands
for a power from -5 to 15, otherwise one digit, a point, the rest and a signed exponent.
-/
def Double.text (negative : Bool) (d : Double) : String :=
  let sign := if negative then ['-'] else []
  if d.mantissa = 0 then String.ofList (sign ++ ['0', '.', '0'])
  else
    let shortest := d.shortest
    let (digits, zeros) := splitZeros (decimal shortest.digits)
    let last := shortest.exponent + zeros
    let first := last + digits.length - 1
    let body :=
      if -5 ≤ first ∧ first ≤ 15 then
        if 0 ≤ last then digits ++ List.replicate last.toNat '0' ++ ['.', '0']
        else if 0 ≤ first then
          digits.take (first + 1).toNat ++ '.' :: digits.drop (first + 1).toNat
        else '0' :: '.' :: List.replicate (-first - 1).toNat '0' ++ digits
      else
        let tail := if digits.length = 1 then [] else '.' :: digits.drop 1
        digits.take 1 ++ tail ++ 'e' :: (if first < 0 then '-' else '+') :: decimal first.natAbs
    String.ofList (sign ++ body)

end ContainerCheck.Number
