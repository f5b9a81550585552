import ContainerCheck.Log.Line
import ContainerCheck.Text.Utf8

namespace ContainerCheck.Log

open ContainerCheck.Text

structure Malformed where
  line : String
  fault : LineFault

/-- What a decoder makes of a line; a fault keeps the line. -/
def decodeText (decoder : List Char → Except LineFault Record) (line : List Char) :
    Except Malformed Record :=
  match decoder line with
  | .ok record => .ok record
  | .error fault => .error ⟨String.ofList line, fault⟩

def splitLines : List UInt8 → List (List UInt8)
  | [] => []
  | b :: rest =>
    if b = 10 then [] :: splitLines rest
    else
      match splitLines rest with
      | [] => [[b]]
      | line :: lines => (b :: line) :: lines

def trimReturn (line : List UInt8) : List UInt8 :=
  if line.getLast? = some 13 then line.dropLast else line

def decodeLine (line : List UInt8) : Except Malformed Record :=
  let text := decodeLossy (trimReturn line)
  match decode text with
  | .ok record => .ok record
  | .error fault => .error ⟨String.ofList text, fault⟩

/-- Decodes lines up to the first that fails. -/
def decodeLines : List (List UInt8) → Except Malformed (List Record)
  | [] => .ok []
  | line :: lines =>
    match decodeLine line with
    | .error malformed => .error malformed
    | .ok record =>
      match decodeLines lines with
      | .error malformed => .error malformed
      | .ok records => .ok (record :: records)

def readRecords (content : List UInt8) : Except Malformed (List Record) :=
  decodeLines (splitLines content)

section

variable {decoder : List Char → Except LineFault Record} {line : List Char}

theorem decodeText_eq_ok_iff {record : Record} :
    decodeText decoder line = .ok record ↔ decoder line = .ok record := by
  unfold decodeText
  cases decoder line <;> simp

theorem decodeText_eq_error_iff {malformed : Malformed} :
    decodeText decoder line = .error malformed ↔
      ∃ fault, decoder line = .error fault ∧ malformed = ⟨String.ofList line, fault⟩ := by
  unfold decodeText
  cases decoder line with
  | ok record => simp
  | error fault => simp [eq_comm]

/-- A decoder that fails quotes its line. -/
theorem line_of_decodeText {malformed : Malformed}
    (h : decodeText decoder line = .error malformed) : malformed.line = String.ofList line := by
  obtain ⟨fault, -, rfl⟩ := decodeText_eq_error_iff.mp h
  rfl

end

@[simp] theorem splitLines_nil : splitLines [] = [] := rfl

@[simp] theorem splitLines_newline (rest : List UInt8) :
    splitLines (10 :: rest) = [] :: splitLines rest := by
  simp [splitLines]

theorem splitLines_line {line : List UInt8} (h : 10 ∉ line) (rest : List UInt8) :
    splitLines (line ++ 10 :: rest) = line :: splitLines rest := by
  induction line with
  | nil => simp
  | cons b line ih =>
    simp only [List.mem_cons, not_or] at h
    simp [splitLines, ih h.2, show b ≠ 10 from fun hb => h.1 hb.symm]

theorem length_of_decodeLines {lines : List (List UInt8)} {records : List Record}
    (h : decodeLines lines = .ok records) : records.length = lines.length := by
  induction lines generalizing records with
  | nil => cases h; rfl
  | cons line lines ih =>
    simp only [decodeLines] at h
    split at h
    · cases h
    · split at h
      · cases h
      · next hr => cases h; simp [ih hr]

end ContainerCheck.Log
