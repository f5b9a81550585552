import ContainerCheck.Json.Shape
import ContainerCheck.Json.Value
import ContainerCheck.Log.Stream
import ContainerCheck.Text.Quoted
import ContainerCheck.Time.Instant

namespace ContainerCheck.Log

open ContainerCheck.Text ContainerCheck.Time

structure Record where
  timestamp : Instant
  stream : LogStream
  payload : String
deriving DecidableEq

/-- The variant of a stream, with its name if it is not a recognized one. -/
def LogStream.describe : LogStream → String
  | stdout => "Stdout"
  | stderr => "Stderr"
  | other name _ => "Other(" ++ quoted name ++ ")"

namespace Record

def carries (record : Record) (payload : String) (stream : LogStream) : Bool :=
  record.payload == payload && record.stream == stream

theorem carries_eq_true_iff (record : Record) (payload : String) (stream : LogStream) :
    record.carries payload stream = true ↔ record.payload = payload ∧ record.stream = stream := by
  simp [carries]

def describe (record : Record) : String :=
  "LogRecord \x7b timestamp: " ++ String.ofList (record.timestamp.text .shortest) ++
    ", stream: " ++ record.stream.describe ++ ", payload: " ++ quoted record.payload ++ " \x7d"

def toValue (record : Record) : Json.Value :=
  .object [
    ("timestamp", .string (String.ofList (record.timestamp.text .shortest))),
    ("stream", .string record.stream.name),
    ("payload", .string record.payload)]

def blank : Record := ⟨⟨0, 0⟩, .stdout, ""⟩

def shape : Json.Shape Record where
  name := "LogRecord"
  blank := blank
  defaulted := false
  fields := [
    .of "timestamp" .timestamp fun record value => { record with timestamp := value },
    .of "stream" .string fun record value => { record with stream := .ofName value },
    .of "payload" .string fun record value => { record with payload := value }]

def padRight (width : Nat) (text : List Char) : List Char :=
  text ++ List.replicate (width - text.length) ' '

/-- A record as a row of a table: the stream has no width of its own. -/
def row (record : Record) : String :=
  String.ofList (padRight 32 (record.timestamp.text .nine) ++ ' ' ::
    record.stream.name.toList ++ ' ' :: spelledChars record.payload.toList)

end Record

def tableHead : String :=
  String.ofList (Record.padRight 32 "TIMESTAMP".toList ++ ' ' ::
    Record.padRight 8 "STREAM".toList ++ ' ' :: "PAYLOAD".toList)

def describeAll (records : List Record) : String :=
  "[" ++ ", ".intercalate (records.map Record.describe) ++ "]"

def describeSequence (records : List Record) : String :=
  "LogSequence \x7b records: " ++ describeAll records ++ " \x7d"

def contains (records : List Record) (payload : String) (stream : LogStream) : Bool :=
  records.any fun record => record.carries payload stream

theorem contains_eq_true_iff (records : List Record) (payload : String) (stream : LogStream) :
    contains records payload stream = true ↔
      ∃ record ∈ records, record.payload = payload ∧ record.stream = stream := by
  simp [contains, Record.carries_eq_true_iff]

end ContainerCheck.Log
