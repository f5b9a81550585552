import ContainerCheck.Number.Shortest
import ContainerCheck.Text.Quoted
import ContainerCheck.Text.Utf8
import ContainerCheck.Time.Scan

namespace ContainerCheck.Json

open ContainerCheck.Text ContainerCheck.Number ContainerCheck.Time

inductive Found
  | null
  | boolean (value : Bool)
  | integer (value : Int)
  | floating (negative : Bool) (value : Double)
  | text (value : String)
  | list
  | object

inductive Fault
  | eofList
  | eofObject
  | eofString
  | eofValue
  | expectedColon
  | expectedListEnd
  | expectedObjectEnd
  | expectedLiteral
  | expectedValue
  | invalidEscape
  | invalidNumber
  | numberOutOfRange
  | controlCharacter
  | keyNotString
  | loneSurrogate
  | unpairedSurrogate
  | trailingComma
  | trailingCharacters
  | wrongType (found : Found) (expected : String)
  | wrongInteger (value : Int) (expected : String)
  | wrongLength (length : Nat) (shape : String) (fields : Nat)
  | missingField (name : String)
  | duplicateField (name : String)
  | unknownVariant (name : String) (variants : List String)
  | timestamp (fault : StampFault)

def Found.message : Found → String
  | .null => "null"
  | .boolean value => "boolean `" ++ (if value then "true" else "false") ++ "`"
  | .integer value => "integer `" ++ toString value ++ "`"
  | .floating negative value => "floating point `" ++ value.text negative ++ "`"
  | .text value => "string " ++ quoted value
  | .list => "sequence"
  | .object => "map"

def backquoted (names : List String) : String :=
  ", ".intercalate (names.map fun name => "`" ++ name ++ "`")

def Fault.message : Fault → String
  | .eofList => "EOF while parsing a list"
  | .eofObject => "EOF while parsing an object"
  | .eofString => "EOF while parsing a string"
  | .eofValue => "EOF while parsing a value"
  | .expectedColon => "expected `:`"
  | .expectedListEnd => "expected `,` or `]`"
  | .expectedObjectEnd => "expected `,` or `\x7d`"
  | .expectedLiteral => "expected ident"
  | .expectedValue => "expected value"
  | .invalidEscape => "invalid escape"
  | .invalidNumber => "invalid number"
  | .numberOutOfRange => "number out of range"
  | .controlCharacter => "control character (\\u0000-\\u001F) found while parsing a string"
  | .keyNotString => "key must be a string"
  | .loneSurrogate => "lone leading surrogate in hex escape"
  | .unpairedSurrogate => "unexpected end of hex escape"
  | .trailingComma => "trailing comma"
  | .trailingCharacters => "trailing characters"
  | .wrongType found expected => "invalid type: " ++ found.message ++ ", expected " ++ expected
  | .wrongInteger value expected =>
    "invalid value: integer `" ++ toString value ++ "`, expected " ++ expected
  | .wrongLength length shape fields =>
    "invalid length " ++ toString length ++ ", expected struct " ++ shape ++ " with " ++
      toString fields ++ (if fields = 1 then " element" else " elements")
  | .missingField name => "missing field `" ++ name ++ "`"
  | .duplicateField name => "duplicate field `" ++ name ++ "`"
  | .unknownVariant name variants =>
    "unknown variant `" ++ name ++ "`, expected one of " ++ backquoted variants
  | .timestamp fault => fault.message

/-- A fault with the number of bytes behind its place. -/
structure Failure where
  fault : Fault
  left : Nat

/-- A fault right before `rest`. -/
def here (fault : Fault) (rest : List Char) : Failure := ⟨fault, byteLength rest⟩

/-- A fault one byte into `rest`, or at its end if it is empty. -/
def ahead (fault : Fault) (rest : List Char) : Failure := ⟨fault, byteLength rest - 1⟩

/-- A fault with its line, counted from one, and its column, counted in bytes. -/
structure Error where
  fault : Fault
  line : Nat
  column : Nat

/-- The place in a text that `left` bytes follow. -/
def Failure.locate (failure : Failure) (text : List Char) : Error :=
  let passed := (encode text).take (byteLength text - failure.left)
  ⟨failure.fault, passed.count 10 + 1, (passed.reverse.takeWhile (· != 10)).length⟩

def Error.message (e : Error) : String :=
  e.fault.message ++ " at line " ++ toString e.line ++ " column " ++ toString e.column

end ContainerCheck.Json
