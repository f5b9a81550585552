import ContainerCheck.Text.Combining
import ContainerCheck.Text.Digits

namespace ContainerCheck.Text

/-- What a way of showing text spells out beside what is never shown raw. -/
structure Escapes where
  doubleQuote : Bool
  singleQuote : Bool
  combining : Bool

def codePoint (c : Char) : List Char :=
  ['\\', 'u', '\x7b'] ++ hexadecimal c.toNat ++ ['\x7d']

def Escapes.char (e : Escapes) (c : Char) : List Char :=
  if c = '\x00' then ['\\', '0']
  else if c = '\t' then ['\\', 't']
  else if c = '\r' then ['\\', 'r']
  else if c = '\n' then ['\\', 'n']
  else if c = '\\' then ['\\', '\\']
  else if c = '"' ∧ e.doubleQuote then ['\\', '"']
  else if c = '\'' ∧ e.singleQuote then ['\\', '\'']
  else if e.combining && isCombining c then codePoint c
  else if isUnprintable c then codePoint c
  else [c]

/-- Inside double quotes a single quote stands for itself. -/
def insideQuotes : Escapes := ⟨true, false, true⟩

/-- At the start of a bare text everything that could be mistaken is spelled out. -/
def atStart : Escapes := ⟨true, true, true⟩

/-- Later in a bare text a combining mark has something to attach to. -/
def afterStart : Escapes := ⟨true, true, false⟩

def quotedChars (text : List Char) : List Char :=
  '"' :: text.flatMap insideQuotes.char ++ ['"']

def spelledChars : List Char → List Char
  | [] => []
  | c :: rest => atStart.char c ++ rest.flatMap afterStart.char

def quoted (text : String) : String := String.ofList (quotedChars text.toList)

def quotedList (texts : List String) : String :=
  "[" ++ ", ".intercalate (texts.map quoted) ++ "]"

end ContainerCheck.Text
