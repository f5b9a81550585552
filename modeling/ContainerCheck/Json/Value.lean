import ContainerCheck.Text.Digits

namespace ContainerCheck.Json

open ContainerCheck.Text

inductive Value
  | null
  | boolean (value : Bool)
  | number (value : Nat)
  | string (value : String)
  | list (items : List Value)
  | object (members : List (String × Value))

def escapeChar (c : Char) : List Char :=
  if c = '"' then ['\\', '"']
  else if c = '\\' then ['\\', '\\']
  else if c = '\x08' then ['\\', 'b']
  else if c = '\x0c' then ['\\', 'f']
  else if c = '\n' then ['\\', 'n']
  else if c = '\r' then ['\\', 'r']
  else if c = '\t' then ['\\', 't']
  else if c < ' ' then
    ['\\', 'u', '0', '0', (c.toNat / 16).digitChar, (c.toNat % 16).digitChar]
  else [c]

def writeString (text : List Char) : List Char := '"' :: text.flatMap escapeChar ++ ['"']

mutual

def Value.chars : Value → List Char
  | .null => ['n', 'u', 'l', 'l']
  | .boolean true => ['t', 'r', 'u', 'e']
  | .boolean false => ['f', 'a', 'l', 's', 'e']
  | .number value => decimal value
  | .string value => writeString value.toList
  | .list items => '[' :: itemsChars items ++ [']']
  | .object members => '\x7b' :: membersChars members ++ ['\x7d']

def itemsChars : List Value → List Char
  | [] => []
  | [item] => item.chars
  | item :: rest => item.chars ++ ',' :: itemsChars rest

def membersChars : List (String × Value) → List Char
  | [] => []
  | [(key, value)] => writeString key.toList ++ ':' :: value.chars
  | (key, value) :: rest => writeString key.toList ++ ':' :: value.chars ++ ',' :: membersChars rest

end

def Value.text (value : Value) : String := String.ofList value.chars

def Value.ofOption {α : Type} (write : α → Value) : Option α → Value
  | none => .null
  | some value => write value

end ContainerCheck.Json
