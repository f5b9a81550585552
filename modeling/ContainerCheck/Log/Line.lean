import ContainerCheck.Log.Record
import ContainerCheck.Time.Strict

namespace ContainerCheck.Log

open ContainerCheck.Text ContainerCheck.Time

inductive Encoding
  | json
  | tagged
deriving Repr, DecidableEq

inductive LineFault
  | json (error : Json.Error)
  | fewFields
  | timestamp (text : String) (fault : StampFault)
  /-- A reason that was found elsewhere. -/
  | stated (reason : String)

def LineFault.message : LineFault → String
  | .json error => error.message
  | .fewFields => "expected TIMESTAMP STREAM TAG CONTENT"
  | .timestamp text fault => "bad timestamp " ++ quoted text ++ ": " ++ fault.message
  | .stated reason => reason

/-- The encoding that a line is taken to have. -/
def encodingOf (line : List Char) : Encoding :=
  match dropBlanks line with
  | [] => .tagged
  | c :: _ => if c = '\x7b' then .json else .tagged

/-- The object of a JSON line; its text is the payload as it stands. -/
def jsonLineShape : Json.Shape Record where
  name := "JsonLogLine"
  blank := Record.blank
  defaulted := false
  fields := [
    .of "log" .string fun record value => { record with payload := value },
    .of "stream" .string fun record value => { record with stream := .ofName value },
    .of "time" .timestamp fun record value => { record with timestamp := value }]

def decodeJson (line : List Char) : Except LineFault Record :=
  match Json.parse jsonLineShape.read line with
  | .ok record => .ok record
  | .error error => .error (.json error)

def cutSpace : List Char → Option (List Char × List Char)
  | [] => none
  | c :: rest =>
    if c = ' ' then some ([], rest) else (cutSpace rest).map fun (field, rest) => (c :: field, rest)

/-- The four fields of a tagged line; the last may hold spaces. -/
structure TaggedFields where
  timestamp : List Char
  stream : List Char
  tag : List Char
  content : List Char

def cutFields (line : List Char) : Option TaggedFields := do
  let (timestamp, rest) ← cutSpace line
  let (stream, rest) ← cutSpace rest
  let (tag, content) ← cutSpace rest
  return ⟨timestamp, stream, tag, content⟩

/-- The tag does not matter, and the payload is the content with the newline that ended the line. -/
def decodeTagged (line : List Char) : Except LineFault Record :=
  match cutFields line with
  | none => .error .fewFields
  | some fields =>
    match readStrict fields.timestamp with
    | .error fault => .error (.timestamp (String.ofList fields.timestamp) fault)
    | .ok timestamp =>
      .ok ⟨timestamp, .ofName (String.ofList fields.stream),
        String.ofList (fields.content ++ ['\n'])⟩

def decode (line : List Char) : Except LineFault Record :=
  match encodingOf line with
  | .json => decodeJson line
  | .tagged => decodeTagged line

theorem cutSpace_eq_some_iff {line field rest : List Char} :
    cutSpace line = some (field, rest) ↔ line = field ++ ' ' :: rest ∧ ' ' ∉ field := by
  induction line generalizing field with
  | nil => simp [cutSpace]
  | cons c tail ih =>
    by_cases h : c = ' '
    · subst h
      cases field with
      | nil => simp [cutSpace]
      | cons d field =>
        simp only [cutSpace, if_true, Option.some.injEq, Prod.mk.injEq, List.cons_append,
          List.cons.injEq, List.mem_cons, not_or]
        exact ⟨fun hc => by simp at hc, fun hc => absurd hc.1.1 hc.2.1⟩
    · cases field with
      | nil => simp [cutSpace, h]
      | cons d field =>
        simp only [cutSpace, h, if_false, Option.map_eq_some_iff, Prod.exists, Prod.mk.injEq,
          List.cons.injEq, List.cons_append, List.mem_cons, not_or]
        constructor
        · rintro ⟨f, r, hr, ⟨rfl, rfl⟩, rfl⟩
          exact ⟨⟨rfl, (ih.1 hr).1⟩, fun hc => h hc.symm, (ih.1 hr).2⟩
        · rintro ⟨⟨rfl, ht⟩, -, hf⟩
          exact ⟨field, rest, ih.2 ⟨ht, hf⟩, ⟨rfl, rfl⟩, rfl⟩

end ContainerCheck.Log
