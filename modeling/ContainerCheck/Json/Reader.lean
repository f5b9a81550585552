import ContainerCheck.Json.Skip
import ContainerCheck.Time.Lenient

namespace ContainerCheck.Json

open ContainerCheck.Text ContainerCheck.Time

abbrev Reader (α : Type) := List Char → Except Failure (α × List Char)

def Numeral.found : Numeral → Found
  | .whole value => .integer value
  | .negative value => .integer (-value)
  | .floating minus value => .floating minus value

def mismatch (expected : String) (text : List Char) : Failure :=
  let wrong (found : Found) (rest : List Char) := here (.wrongType found expected) rest
  let word (letters rest : List Char) (found : Found) :=
    match readWord letters rest with
    | .error failure => failure
    | .ok rest => wrong found rest
  let numeral (negative : Bool) (rest : List Char) :=
    match readNumeral negative rest with
    | .error failure => failure
    | .ok (value, rest) => wrong value.found rest
  match text with
  | [] => ahead .expectedValue []
  | c :: rest =>
    if c = 'n' then word ['u', 'l', 'l'] rest .null
    else if c = 't' then word ['r', 'u', 'e'] rest (.boolean true)
    else if c = 'f' then word ['a', 'l', 's', 'e'] rest (.boolean false)
    else if c = '-' then numeral true rest
    else if c.isDigit then numeral false text
    else if c = '"' then
      match readString rest with
      | .error failure => failure
      | .ok (value, rest) => wrong (.text (String.ofList value)) rest
    else if c = '[' then wrong .list text
    else if c = '\x7b' then wrong .object text
    else ahead .expectedValue text

namespace Reader

/-- A string, called `expected` where another kind of value stands. -/
def named (expected : String) : Reader String := fun text =>
  match skipSpaces text with
  | [] => .error (ahead .eofValue [])
  | c :: rest =>
    if c = '"' then
      match readString rest with
      | .error failure => .error failure
      | .ok (value, rest) => .ok (String.ofList value, rest)
    else .error (mismatch expected (c :: rest))

def string : Reader String := named "a string"

def path : Reader String := named "path string"

def timestamp : Reader Instant := fun text =>
  match named "an RFC 3339 formatted date and time string" text with
  | .error failure => .error failure
  | .ok (value, rest) =>
    match readLenient value.toList with
    | .error fault => .error (here (.timestamp fault) rest)
    | .ok instant => .ok (instant, rest)

def natBelow (limit : Nat) (expected : String) : Reader Nat := fun text =>
  let check (numeral : Except Failure (Numeral × List Char)) : Except Failure (Nat × List Char) :=
    match numeral with
    | .error failure => .error failure
    | .ok (.whole value, rest) =>
      if value < limit then .ok (value, rest)
      else .error (here (.wrongInteger value expected) rest)
    | .ok (.negative value, rest) => .error (here (.wrongInteger (-value) expected) rest)
    | .ok (.floating negative value, rest) =>
      .error (here (.wrongType (.floating negative value) expected) rest)
  match skipSpaces text with
  | [] => .error (ahead .eofValue [])
  | c :: rest =>
    if c = '-' then check (readNumeral true rest)
    else if c.isDigit then check (readNumeral false (c :: rest))
    else .error (mismatch expected (c :: rest))

def nat64 : Reader Nat := natBelow (Nat.pow 2 64) "u64"

def nat32 : Reader Nat := natBelow (Nat.pow 2 32) "u32"

def boolean : Reader Bool := fun text =>
  match skipSpaces text with
  | [] => .error (ahead .eofValue [])
  | 't' :: rest =>
    match readWord ['r', 'u', 'e'] rest with
    | .error failure => .error failure
    | .ok rest => .ok (true, rest)
  | 'f' :: rest =>
    match readWord ['a', 'l', 's', 'e'] rest with
    | .error failure => .error failure
    | .ok rest => .ok (false, rest)
  | text => .error (mismatch "a boolean" text)

def option {α : Type} (read : Reader α) : Reader (Option α) := fun text =>
  match skipSpaces text with
  | 'n' :: rest =>
    match readWord ['u', 'l', 'l'] rest with
    | .error failure => .error failure
    | .ok rest => .ok (none, rest)
  | text =>
    match read text with
    | .error failure => .error failure
    | .ok (value, rest) => .ok (some value, rest)

end Reader

/-- What stands next inside brackets: their end, or a part that starts with `text`. -/
inductive Next
  | closed (rest : List Char)
  | part (text : List Char)

def nextItem (first : Bool) (text : List Char) : Except Failure Next :=
  match skipSpaces text with
  | [] => .error (ahead .eofList [])
  | c :: rest =>
    if c = ']' then .ok (.closed rest)
    else if first then .ok (.part (c :: rest))
    else if c = ',' then
      match skipSpaces rest with
      | [] => .error (ahead .eofValue [])
      | d :: rest =>
        if d = ']' then .error (ahead .trailingComma (d :: rest)) else .ok (.part (d :: rest))
    else .error (ahead .expectedListEnd (c :: rest))

def nextMember (first : Bool) (text : List Char) : Except Failure Next :=
  match skipSpaces text with
  | [] => .error (ahead .eofObject [])
  | c :: rest =>
    if c = '\x7d' then .ok (.closed rest)
    else if first then
      if c = '"' then .ok (.part rest) else .error (ahead .keyNotString (c :: rest))
    else if c = ',' then
      match skipSpaces rest with
      | [] => .error (ahead .eofValue [])
      | d :: rest =>
        if d = '"' then .ok (.part rest)
        else if d = '\x7d' then .error (ahead .trailingComma (d :: rest))
        else .error (ahead .keyNotString (d :: rest))
    else .error (ahead .expectedObjectEnd (c :: rest))

/-- The items of a list behind its bracket. Every item takes a character, so the length is fuel. -/
def readItems {α : Type} (read : Reader α) :
    Nat → Bool → List Char → Except Failure (List α × List Char)
  | 0, _, text => .error (here .eofList text)
  | fuel + 1, first, text =>
    match nextItem first text with
    | .error failure => .error failure
    | .ok (.closed rest) => .ok ([], rest)
    | .ok (.part text) =>
      match read text with
      | .error failure => .error failure
      | .ok (item, rest) =>
        match readItems read fuel false rest with
        | .error failure => .error failure
        | .ok (items, rest) => .ok (item :: items, rest)

def assign {α : Type} (key : String) (value : α) : List (String × α) → List (String × α)
  | [] => [(key, value)]
  | (k, v) :: rest => if k = key then (key, value) :: rest else (k, v) :: assign key value rest

/-- The members of an object behind its bracket, the last value of a repeated key. -/
def readMembers {α : Type} (read : Reader α) :
    Nat → Bool → List (String × α) → List Char → Except Failure (List (String × α) × List Char)
  | 0, _, _, text => .error (here .eofObject text)
  | fuel + 1, first, members, text =>
    match nextMember first text with
    | .error failure => .error failure
    | .ok (.closed rest) => .ok (members, rest)
    | .ok (.part text) => do
      let (key, rest) ← readString text
      let rest ← readColon rest
      let (value, rest) ← read rest
      readMembers read fuel false (assign (String.ofList key) value members) rest

namespace Reader

def list {α : Type} (read : Reader α) : Reader (List α) := fun text =>
  match skipSpaces text with
  | [] => .error (ahead .eofValue [])
  | c :: rest =>
    if c = '[' then readItems read (rest.length + 1) true rest
    else .error (mismatch "a sequence" (c :: rest))

def map {α : Type} (read : Reader α) : Reader (List (String × α)) := fun text =>
  match skipSpaces text with
  | [] => .error (ahead .eofValue [])
  | c :: rest =>
    if c = '\x7b' then readMembers read (rest.length + 1) true [] rest
    else .error (mismatch "a map" (c :: rest))

def variantOf {α : Type} (variants : List (String × α)) (name : String) (rest : List Char) :
    Except Failure (α × List Char) :=
  match variants.lookup name with
  | some value => .ok (value, rest)
  | none => .error (here (.unknownVariant name (variants.map Prod.fst)) rest)

def unit : Reader Unit := fun text =>
  match skipSpaces text with
  | [] => .error (ahead .eofValue [])
  | 'n' :: rest =>
    match readWord ['u', 'l', 'l'] rest with
    | .error failure => .error failure
    | .ok rest => .ok ((), rest)
  | text => .error (mismatch "unit" text)

def variantKey : Reader String := fun text =>
  match skipSpaces text with
  | [] => .error (ahead .eofObject [])
  | c :: rest =>
    if c = '"' then do
      let (name, rest) ← readString rest
      return (String.ofList name, rest)
    else .error (ahead .keyNotString (c :: rest))

/-- One of some names, bare or as the only key of an object. -/
def variant {α : Type} (variants : List (String × α)) : Reader α := fun text =>
  match skipSpaces text with
  | [] => .error (ahead .eofValue [])
  | c :: rest =>
    if c = '"' then do
      let (name, rest) ← readString rest
      variantOf variants (String.ofList name) rest
    else if c = '\x7b' then do
      let (name, rest) ← variantKey rest
      let (value, rest) ← variantOf variants name rest
      let rest ← readColon rest
      let (_, rest) ← unit rest
      match skipSpaces rest with
      | [] => .error (here .eofObject [])
      | d :: rest =>
        if d = '\x7d' then .ok (value, rest) else .error (here .expectedValue (d :: rest))
    else .error (ahead .expectedValue (c :: rest))

end Reader

/-- Reads a text that is one value and nothing else but white space. -/
def parse {α : Type} (read : Reader α) (text : List Char) : Except Error α :=
  match read text with
  | .error failure => .error (failure.locate text)
  | .ok (value, rest) =>
    match skipSpaces rest with
    | [] => .ok value
    | rest => .error ((ahead .trailingCharacters rest).locate text)

end ContainerCheck.Json
