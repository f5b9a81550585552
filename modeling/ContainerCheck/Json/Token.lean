import ContainerCheck.Json.Fault

namespace ContainerCheck.Json

open ContainerCheck.Text

def isSpace (c : Char) : Bool := c == ' ' || c == '\n' || c == '\t' || c == '\r'

def skipSpaces : List Char → List Char
  | [] => []
  | c :: rest => if isSpace c then skipSpaces rest else c :: rest

def readWord : List Char → List Char → Except Failure (List Char)
  | [], text => .ok text
  | _ :: _, [] => .error (here .eofValue [])
  | letter :: letters, c :: rest =>
    if c = letter then readWord letters rest else .error (ahead .expectedLiteral (c :: rest))

def hexDigit? (c : Char) : Option Nat :=
  if c.isDigit then some (c.toNat - 48)
  else if 'a' ≤ c ∧ c ≤ 'f' then some (c.toNat - 87)
  else if 'A' ≤ c ∧ c ≤ 'F' then some (c.toNat - 55)
  else none

def hexQuad? (a b c d : Char) : Option Nat := do
  return ((← hexDigit? a) * 16 + (← hexDigit? b)) * 256 + (← hexDigit? c) * 16 + (← hexDigit? d)

/-- Why the text behind `\u` is no hexadecimal number. -/
def hexFailure (text : List Char) : Failure :=
  if byteLength text < 4 then here .eofString [] else ⟨.invalidEscape, byteLength text - 4⟩

def isHighSurrogate (n : Nat) : Bool := 0xd800 ≤ n && n ≤ 0xdbff

def isLowSurrogate (n : Nat) : Bool := 0xdc00 ≤ n && n ≤ 0xdfff

def pairChar (high low : Nat) : Char :=
  Char.ofNat ((high - 0xd800) * 0x400 + (low - 0xdc00) + 0x10000)

def simpleEscape? (c : Char) : Option Char :=
  if c = '"' then some '"'
  else if c = '\\' then some '\\'
  else if c = '/' then some '/'
  else if c = 'b' then some '\x08'
  else if c = 'f' then some '\x0c'
  else if c = 'n' then some '\n'
  else if c = 'r' then some '\r'
  else if c = 't' then some '\t'
  else none

def consChar (c : Char) :
    Except Failure (List Char × List Char) → Except Failure (List Char × List Char)
  | .error failure => .error failure
  | .ok (text, rest) => .ok (c :: text, rest)

/-- The content of a string, behind its opening quote, and what follows its closing one. -/
def readString : List Char → Except Failure (List Char × List Char)
  | [] => .error (here .eofString [])
  | c :: rest =>
    if c = '"' then .ok ([], rest)
    else if c = '\\' then
      match rest with
      | [] => .error (here .eofString [])
      | 'u' :: digits =>
        match digits with
        | a :: b :: c :: d :: after =>
          match hexQuad? a b c d with
          | none => .error (hexFailure digits)
          | some n =>
            if isLowSurrogate n then .error (here .loneSurrogate after)
            else if isHighSurrogate n then
              match after with
              | [] => .error (here .eofString [])
              | '\\' :: [] => .error (here .eofString [])
              | '\\' :: 'u' :: digits' =>
                match digits' with
                | e :: f :: g :: h :: after' =>
                  match hexQuad? e f g h with
                  | none => .error (hexFailure digits')
                  | some m =>
                    if isLowSurrogate m then consChar (pairChar n m) (readString after')
                    else .error (here .loneSurrogate after')
                | _ => .error (hexFailure digits')
              | '\\' :: other => .error (ahead .unpairedSurrogate other)
              | other => .error (ahead .unpairedSurrogate other)
            else consChar (Char.ofNat n) (readString after)
        | _ => .error (hexFailure digits)
      | e :: after =>
        match simpleEscape? e with
        | some char => consChar char (readString after)
        | none => .error (ahead .invalidEscape rest)
    else if c < ' ' then .error (ahead .controlCharacter (c :: rest))
    else consChar c (readString rest)

/-- What follows a string whose content does not matter: surrogates need not pair. -/
def skipString : List Char → Except Failure (List Char)
  | [] => .error (here .eofString [])
  | c :: rest =>
    if c = '"' then .ok rest
    else if c = '\\' then
      match rest with
      | [] => .error (here .eofString [])
      | 'u' :: digits =>
        match digits with
        | a :: b :: c :: d :: after =>
          match hexQuad? a b c d with
          | none => .error (hexFailure digits)
          | some _ => skipString after
        | _ => .error (hexFailure digits)
      | e :: after =>
        match simpleEscape? e with
        | some _ => skipString after
        | none => .error (ahead .invalidEscape rest)
    else if c < ' ' then .error (here .controlCharacter (c :: rest))
    else skipString rest

end ContainerCheck.Json
