import ContainerCheck.Json.Reader

namespace ContainerCheck.Json

open ContainerCheck.Text

structure Field (α : Type) where
  name : String
  /-- Whether an object may lack the field and keep the blank's value. -/
  optional : Bool
  /-- Reads the value and gives the way to store it. -/
  read : Reader (α → α)

def Field.of {α β : Type} (name : String) (read : Reader β) (set : α → β → α) : Field α :=
  ⟨name, false, fun text =>
    match read text with
    | .error failure => .error failure
    | .ok (value, rest) => .ok (fun draft => set draft value, rest)⟩

/-- A field that an object may lack. -/
def Field.lax {α β : Type} (name : String) (read : Reader β) (set : α → β → α) : Field α :=
  { Field.of name read set with optional := true }

structure Shape (α : Type) where
  name : String
  /-- The structure before any field is read. -/
  blank : α
  /-- Whether every field that is not given keeps the blank's value, in a list too. -/
  defaulted : Bool
  fields : List (Field α)

namespace Shape

variable {α : Type}

def find? (shape : Shape α) (key : String) : Option (Field α) :=
  shape.fields.find? fun field => field.name == key

def missing? (shape : Shape α) (given : List String) : Option String :=
  if shape.defaulted then none
  else (shape.fields.find? fun field => !field.optional && !given.contains field.name).map (·.name)

/-- The bytes left once white space and the closing bracket of an object are passed. -/
def settled (rest : List Char) : Nat :=
  match skipSpaces rest with
  | [] => 0
  | c :: rest => if c = '\x7d' then byteLength rest else byteLength (c :: rest)

def readObject (shape : Shape α) :
    Nat → Bool → List String → α → List Char → Except Failure (α × List Char)
  | 0, _, _, _, text => .error (here .eofObject text)
  | fuel + 1, first, given, draft, text =>
    match nextMember first text with
    | .error failure => .error failure
    | .ok (.closed rest) =>
      match shape.missing? given with
      | some name => .error (here (.missingField name) rest)
      | none => .ok (draft, rest)
    | .ok (.part text) => do
      let (key, rest) ← readString text
      match shape.find? (String.ofList key) with
      | none =>
        let rest ← readColon rest
        let rest ← skipValue rest
        readObject shape fuel false given draft rest
      | some field =>
        if given.contains field.name then .error ⟨.duplicateField field.name, settled rest⟩
        else
          let rest ← readColon rest
          let (set, rest) ← field.read rest
          readObject shape fuel false (field.name :: given) (set draft) rest

def readListEnd (value : α) (text : List Char) : Except Failure (α × List Char) :=
  match skipSpaces text with
  | [] => .error (ahead .eofList [])
  | c :: rest =>
    if c = ']' then .ok (value, rest)
    else if c = ',' then
      match skipSpaces rest with
      | [] => .error (ahead .trailingCharacters [])
      | d :: rest =>
        .error (ahead (if d = ']' then .trailingComma else .trailingCharacters) (d :: rest))
    else .error (ahead .trailingCharacters (c :: rest))

/-- The fields of a list behind its bracket, `count` of which have been read. -/
def readList (shape : Shape α) :
    List (Field α) → Nat → α → List Char → Except Failure (α × List Char)
  | [], _, draft, text => readListEnd draft text
  | field :: fields, count, draft, text =>
    match nextItem (count == 0) text with
    | .error failure => .error failure
    | .ok (.closed rest) =>
      if shape.defaulted then .ok (draft, rest)
      else .error (here (.wrongLength count shape.name shape.fields.length) rest)
    | .ok (.part text) =>
      match field.read text with
      | .error failure => .error failure
      | .ok (set, rest) => readList shape fields (count + 1) (set draft) rest

def read (shape : Shape α) : Reader α := fun text =>
  match skipSpaces text with
  | [] => .error (ahead .eofValue [])
  | c :: rest =>
    if c = '\x7b' then shape.readObject (rest.length + 1) true [] shape.blank rest
    else if c = '[' then shape.readList shape.fields 0 shape.blank rest
    else .error (mismatch ("struct " ++ shape.name) (c :: rest))

end Shape

end ContainerCheck.Json
