namespace ContainerCheck.Text

def replacement : Char := '\uFFFD'

def encode (text : List Char) : List UInt8 := text.flatMap String.utf8EncodeChar

@[simp] theorem encode_nil : encode [] = [] := rfl

@[simp] theorem encode_cons (c : Char) (text : List Char) :
    encode (c :: text) = String.utf8EncodeChar c ++ encode text := rfl

@[simp] theorem encode_append (a b : List Char) : encode (a ++ b) = encode a ++ encode b := by
  simp [encode]

def byteLength (text : List Char) : Nat := text.foldr (fun c rest => c.utf8Size + rest) 0

@[simp] theorem byteLength_nil : byteLength [] = 0 := rfl

@[simp] theorem byteLength_cons (c : Char) (text : List Char) :
    byteLength (c :: text) = c.utf8Size + byteLength text := rfl

@[simp] theorem byteLength_append (a b : List Char) :
    byteLength (a ++ b) = byteLength a + byteLength b := by
  induction a with
  | nil => simp
  | cons c a ih => simp [ih, Nat.add_assoc]

def isContinuation (b : UInt8) : Bool := 0x80 ≤ b && b ≤ 0xbf

/-- The number of bytes of the character that a byte begins, or none if it begins no character. -/
def width? (lead : UInt8) : Option Nat :=
  if lead < 0x80 then some 1
  else if 0xc2 ≤ lead && lead ≤ 0xdf then some 2
  else if 0xe0 ≤ lead && lead ≤ 0xef then some 3
  else if 0xf0 ≤ lead && lead ≤ 0xf4 then some 4
  else none

/-- Whether a byte may stand second: long forms, surrogates and numbers past the last are out. -/
def isSecond (lead second : UInt8) : Bool :=
  if lead == 0xe0 then 0xa0 ≤ second && second ≤ 0xbf
  else if lead == 0xed then 0x80 ≤ second && second ≤ 0x9f
  else if lead == 0xf0 then 0x90 ≤ second && second ≤ 0xbf
  else if lead == 0xf4 then 0x80 ≤ second && second ≤ 0x8f
  else isContinuation second

def char2 (a b : UInt8) : Char := Char.ofNat (a.toNat % 0x20 * 0x40 + b.toNat % 0x40)

def char3 (a b c : UInt8) : Char :=
  Char.ofNat (a.toNat % 0x10 * 0x1000 + b.toNat % 0x40 * 0x40 + c.toNat % 0x40)

def char4 (a b c d : UInt8) : Char :=
  Char.ofNat (a.toNat % 0x08 * 0x40000 + b.toNat % 0x40 * 0x1000 + c.toNat % 0x40 * 0x40 +
    d.toNat % 0x40)

/-- Reads any bytes as text, with one replacement per maximal piece of no whole character. -/
def decodeLossy : List UInt8 → List Char
  | [] => []
  | a :: rest =>
    match width? a with
    | none => replacement :: decodeLossy rest
    | some 1 => Char.ofNat a.toNat :: decodeLossy rest
    | some 2 =>
      match rest with
      | [] => [replacement]
      | b :: r =>
        if isSecond a b then char2 a b :: decodeLossy r else replacement :: decodeLossy (b :: r)
    | some 3 =>
      match rest with
      | [] => [replacement]
      | b :: r =>
        if isSecond a b then
          match r with
          | [] => [replacement]
          | c :: s =>
            if isContinuation c then char3 a b c :: decodeLossy s
            else replacement :: decodeLossy (c :: s)
        else replacement :: decodeLossy (b :: r)
    | some _ =>
      match rest with
      | [] => [replacement]
      | b :: r =>
        if isSecond a b then
          match r with
          | [] => [replacement]
          | c :: s =>
            if isContinuation c then
              match s with
              | [] => [replacement]
              | d :: t =>
                if isContinuation d then char4 a b c d :: decodeLossy t
                else replacement :: decodeLossy (d :: t)
            else replacement :: decodeLossy (c :: s)
        else replacement :: decodeLossy (b :: r)

def decode? (bytes : List UInt8) : Option (List Char) :=
  if encode (decodeLossy bytes) = bytes then some (decodeLossy bytes) else none

end ContainerCheck.Text
