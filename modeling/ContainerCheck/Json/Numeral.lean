import ContainerCheck.Json.Token

namespace ContainerCheck.Json

open ContainerCheck.Text ContainerCheck.Number

inductive Numeral
  | whole (value : Nat)
  /-- The number `-value`, where `value` is at least one. -/
  | negative (value : Nat)
  | floating (negative : Bool) (value : Double)

/-- One past the greatest 64-bit number. -/
def wordLimit : Nat := Nat.pow 2 64

/-- Appends digits as long as the value fits a word, and gives the digits that are left. -/
def appendDigits : Nat → List Char → Nat × List Char
  | value, [] => (value, [])
  | value, c :: rest =>
    if value * 10 + digitValue c < wordLimit then appendDigits (value * 10 + digitValue c) rest
    else (value, c :: rest)

/-- `value * 10 ^ exponent`, by powers of ten of at most 308 zeros. -/
def scaleTen : Nat → Double → Int → Option Double
  | 0, value, _ => some value
  | fuel + 1, value, exponent =>
    if exponent.natAbs ≤ 308 then
      if 0 ≤ exponent then value.timesTen? exponent.toNat
      else some (value.overTen exponent.natAbs)
    else if value.mantissa = 0 then some value
    else if 0 ≤ exponent then none
    else scaleTen fuel (value.overTen 308) (exponent + 308)

/-- The fraction for a significand and an exponent; `rest` is what follows the number. -/
def toFloating (negative : Bool) (significand : Nat) (exponent : Int) (rest : List Char) :
    Except Failure (Numeral × List Char) :=
  match scaleTen 8 (Double.ofNat significand) exponent with
  | some value => .ok (.floating negative value, rest)
  | none => .error (here .numberOutOfRange rest)

def exponentLimit : Int := Int.pow 2 31

def clampExponent (exponent : Int) : Int := max (-exponentLimit) (min (exponentLimit - 1) exponent)

/-- Appends digits to an exponent, and gives the digits behind the first that does not fit. -/
def appendExponent : Nat → List Char → Nat × Option (List Char)
  | value, [] => (value, none)
  | value, c :: rest =>
    if value * 10 + digitValue c < exponentLimit.toNat then
      appendExponent (value * 10 + digitValue c) rest
    else (value, some rest)

def readExponent (negative : Bool) (significand : Nat) (start : Int) (text : List Char) :
    Except Failure (Numeral × List Char) :=
  let (down, text) := match text with
    | '+' :: rest => (false, rest)
    | '-' :: rest => (true, rest)
    | _ => (false, text)
  match text with
  | [] => .error (here .eofValue [])
  | c :: rest =>
    if ¬ c.isDigit then .error (ahead .invalidNumber text)
    else
      let digits := rest.takeWhile Char.isDigit
      let after := rest.dropWhile Char.isDigit
      match appendExponent (digitValue c) digits with
      | (value, none) =>
        let exponent := clampExponent (if down then start - value else start + value)
        toFloating negative significand exponent after
      | (_, some unread) =>
        if significand ≠ 0 ∧ ¬ down then .error (here .numberOutOfRange (unread ++ after))
        else .ok (.floating negative Double.zero, after)

def readTail (negative : Bool) (significand : Nat) (exponent : Int) :
    List Char → Except Failure (Numeral × List Char)
  | 'e' :: rest => readExponent negative significand exponent rest
  | 'E' :: rest => readExponent negative significand exponent rest
  | rest => toFloating negative significand exponent rest

def readFraction (negative : Bool) (significand : Nat) (exponent : Int) (text : List Char) :
    Except Failure (Numeral × List Char) :=
  let digits := text.takeWhile Char.isDigit
  let after := text.dropWhile Char.isDigit
  if digits = [] then
    .error (ahead (if after = [] then .eofValue else .invalidNumber) after)
  else
    let (value, unread) := appendDigits significand digits
    readTail negative value (exponent - (digits.length - unread.length : Nat)) after

def readRest (negative : Bool) (digits after : List Char) :
    Except Failure (Numeral × List Char) :=
  match appendDigits 0 digits with
  | (value, []) =>
    match after with
    | '.' :: rest => readFraction negative value 0 rest
    | 'e' :: rest => readExponent negative value 0 rest
    | 'E' :: rest => readExponent negative value 0 rest
    | _ =>
      if ¬ negative then .ok (.whole value, after)
      else if 0 < value ∧ value ≤ Nat.pow 2 63 then .ok (.negative value, after)
      else .ok (.floating true (Double.ofNat value), after)
  | (value, unread) =>
    match after with
    | '.' :: rest => readFraction negative value unread.length rest
    | _ => readTail negative value unread.length after

def readNumeral (negative : Bool) (text : List Char) : Except Failure (Numeral × List Char) :=
  match text with
  | [] => .error (here .eofValue [])
  | c :: rest =>
    if c = '0' then
      if (rest.head?.map Char.isDigit).getD false then .error (ahead .invalidNumber rest)
      else readRest negative ['0'] rest
    else if c.isDigit then
      readRest negative (text.takeWhile Char.isDigit) (text.dropWhile Char.isDigit)
    else .error (ahead .invalidNumber text)

def skipDigits (text : List Char) : Except Failure (List Char) :=
  match text with
  | [] => .error (here .invalidNumber [])
  | c :: rest =>
    if c.isDigit then .ok (rest.dropWhile Char.isDigit) else .error (ahead .invalidNumber text)

def skipExponent : List Char → Except Failure (List Char)
  | '+' :: rest => skipDigits rest
  | '-' :: rest => skipDigits rest
  | rest => skipDigits rest

def skipFraction (text : List Char) : Except Failure (List Char) :=
  match text.takeWhile Char.isDigit, text.dropWhile Char.isDigit with
  | [], after => .error (ahead .invalidNumber after)
  | _, 'e' :: rest => skipExponent rest
  | _, 'E' :: rest => skipExponent rest
  | _, after => .ok after

def skipNumeral (text : List Char) : Except Failure (List Char) := do
  let rest ← match text with
    | '0' :: rest =>
      if (rest.head?.map Char.isDigit).getD false then .error (ahead .invalidNumber rest)
      else .ok rest
    | _ => skipDigits text
  match rest with
  | '.' :: rest => skipFraction rest
  | 'e' :: rest => skipExponent rest
  | 'E' :: rest => skipExponent rest
  | _ => return rest

end ContainerCheck.Json
