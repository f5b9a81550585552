import ContainerCheck.Json.Numeral

namespace ContainerCheck.Json

/-- What the value being passed over stands in. -/
inductive Frame
  | list
  | object
deriving Repr, DecidableEq

def Frame.close : Frame → Char
  | .list => ']'
  | .object => '\x7d'

def Frame.eof : Frame → Fault
  | .list => .eofList
  | .object => .eofObject

def Frame.expectedEnd : Frame → Fault
  | .list => .expectedListEnd
  | .object => .expectedObjectEnd

def readColon (text : List Char) : Except Failure (List Char) :=
  match skipSpaces text with
  | [] => .error (ahead .eofObject [])
  | c :: rest => if c = ':' then .ok rest else .error (ahead .expectedColon (c :: rest))

/-- Passes over what stands before a value: in an object, its key and the colon. -/
def Frame.enter (frame : Frame) (text : List Char) : Except Failure (List Char) :=
  match frame with
  | .list => .ok text
  | .object =>
    match skipSpaces text with
    | [] => .error (ahead .eofObject [])
    | c :: rest =>
      if c = '"' then do readColon (← skipString rest)
      else .error (ahead .keyNotString (c :: rest))

def leave : List Frame → List Char → Except Failure (List Frame × List Char)
  | [], text => .ok ([], text)
  | frame :: outer, text =>
    match skipSpaces text with
    | [] => .error (ahead frame.eof [])
    | c :: rest =>
      if c = ',' then
        match frame.enter rest with
        | .error failure => .error failure
        | .ok rest => .ok (frame :: outer, rest)
      else if c = frame.close then leave outer rest
      else .error (ahead frame.expectedEnd (c :: rest))

def openFrame (frame : Frame) (outer : List Frame) (text : List Char) :
    Except Failure (List Frame × List Char) :=
  match skipSpaces text with
  | [] => .error (ahead frame.eof [])
  | c :: rest =>
    if c = frame.close then leave outer rest
    else
      match frame.enter (c :: rest) with
      | .error failure => .error failure
      | .ok rest => .ok (frame :: outer, rest)

def skipScalar (c : Char) (rest : List Char) : Except Failure (List Char) :=
  if c = 'n' then readWord ['u', 'l', 'l'] rest
  else if c = 't' then readWord ['r', 'u', 'e'] rest
  else if c = 'f' then readWord ['a', 'l', 's', 'e'] rest
  else if c = '-' then skipNumeral rest
  else if c.isDigit then skipNumeral (c :: rest)
  else if c = '"' then skipString rest
  else .error (ahead .expectedValue (c :: rest))

def skipStep (frames : List Frame) (text : List Char) : Except Failure (List Frame × List Char) :=
  match skipSpaces text with
  | [] => .error (ahead .eofValue [])
  | c :: rest =>
    if c = '[' then openFrame .list frames rest
    else if c = '\x7b' then openFrame .object frames rest
    else
      match skipScalar c rest with
      | .error failure => .error failure
      | .ok rest => leave frames rest

/-- Passes over a value inside `frames`. Every step takes a character, so the length is fuel. -/
def skipIn : Nat → List Frame → List Char → Except Failure (List Char)
  | 0, _, text => .error (here .eofValue text)
  | fuel + 1, frames, text =>
    match skipStep frames text with
    | .error failure => .error failure
    | .ok ([], rest) => .ok rest
    | .ok (frame :: outer, rest) => skipIn fuel (frame :: outer) rest

def skipValue (text : List Char) : Except Failure (List Char) := skipIn (text.length + 1) [] text

end ContainerCheck.Json
