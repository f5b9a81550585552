import ContainerCheck.CommandLine.Command
import ContainerCheck.Proofs.PrintedJson
import ContainerCheck.Proofs.ShownTimestamp
import Mathlib.Data.List.Forall2

namespace ContainerCheck

open ContainerCheck.Text ContainerCheck.Time ContainerCheck.Json ContainerCheck.Log

namespace Json

variable {α : Type}

def Field.Keeps (field : Field α) (P : α → Prop) : Prop :=
  ∀ text set rest draft, field.read text = .ok (set, rest) → P draft → P (set draft)

theorem Field.of_keeps {β : Type} {P : α → Prop} {read : Reader β} {set : α → β → α} (name : String)
    (h : ∀ text value rest draft, read text = .ok (value, rest) → P draft → P (set draft value)) :
    (Field.of name read set).Keeps P := by
  intro text store rest draft hread hdraft
  simp only [Field.of] at hread
  split at hread
  · cases hread
  · next hvalue =>
    cases hread
    exact h _ _ _ draft hvalue hdraft

namespace Shape

variable {shape : Shape α} {P : α → Prop}

theorem readObject_keeps (hfields : ∀ field ∈ shape.fields, field.Keeps P) {fuel : Nat}
    {first : Bool} {given : List String} {draft value : α} {text rest : List Char}
    (hdraft : P draft) (h : shape.readObject fuel first given draft text = .ok (value, rest)) :
    P value := by
  induction fuel generalizing first given draft text with
  | zero => cases h
  | succ fuel ih =>
    simp only [readObject] at h
    split at h
    · cases h
    · split at h
      · cases h
      · cases h
        exact hdraft
    · simp only [bind_eq_ok_iff, Prod.exists] at h
      obtain ⟨key, afterKey, -, h⟩ := h
      split at h
      · simp only [bind_eq_ok_iff] at h
        obtain ⟨afterColon, -, afterValue, -, h⟩ := h
        exact ih hdraft h
      · next field hfield =>
        split at h
        · cases h
        · simp only [bind_eq_ok_iff, Prod.exists] at h
          obtain ⟨afterColon, -, set, afterValue, hset, h⟩ := h
          have hmem : field ∈ shape.fields := List.mem_of_find?_eq_some hfield
          exact ih (hfields field hmem _ _ _ draft hset hdraft) h

theorem readList_keeps {fields : List (Field α)} (hfields : ∀ field ∈ fields, field.Keeps P)
    {count : Nat} {draft value : α} {text rest : List Char} (hdraft : P draft)
    (h : shape.readList fields count draft text = .ok (value, rest)) : P value := by
  induction fields generalizing count draft text with
  | nil =>
    simp only [readList, readListEnd] at h
    split at h
    · cases h
    · split at h
      · cases h
        exact hdraft
      · split at h
        · split at h <;> cases h
        · cases h
  | cons field fields ih =>
    simp only [readList] at h
    split at h
    · cases h
    · split at h
      · cases h
        exact hdraft
      · cases h
    · split at h
      · cases h
      · next hset =>
        have hstored := hfields field List.mem_cons_self _ _ _ draft hset hdraft
        exact ih (fun f hf => hfields f (List.mem_cons_of_mem _ hf)) hstored h

/-- What no field ends and the blank has, every structure that is read has. -/
theorem read_keeps (hblank : P shape.blank) (hfields : ∀ field ∈ shape.fields, field.Keeps P)
    {text rest : List Char} {value : α} (h : shape.read text = .ok (value, rest)) : P value := by
  simp only [read] at h
  split at h
  · cases h
  · split at h
    · exact readObject_keeps hfields hblank h
    · split at h
      · exact readList_keeps hfields hblank h
      · cases h

theorem parse_keeps (hblank : P shape.blank) (hfields : ∀ field ∈ shape.fields, field.Keeps P)
    {text : List Char} {value : α} (h : parse shape.read text = .ok value) : P value := by
  simp only [parse] at h
  split at h
  · cases h
  · next hread =>
    split at h
    · cases h
      exact read_keeps hblank hfields hread
    · cases h

end Shape

theorem shown_of_timestamp {text rest : List Char} {instant : Instant}
    (h : Reader.timestamp text = .ok (instant, rest)) : instant.Shown := by
  simp only [Reader.timestamp] at h
  split at h
  · cases h
  · split at h
    · cases h
    · next hread =>
      cases h
      exact shown_of_readLenient hread

end Json

namespace Log

theorem shown_of_decodeJson {line : List Char} {record : Record}
    (h : decodeJson line = .ok record) : record.timestamp.Shown := by
  have hblank : (jsonLineShape.blank).timestamp.Shown := ⟨by decide, by decide, by decide⟩
  have hfields : ∀ field ∈ jsonLineShape.fields,
      field.Keeps fun record => record.timestamp.Shown := by
    simp only [jsonLineShape, List.forall_mem_cons]
    refine ⟨?_, ?_, ?_, by simp⟩
    · exact Field.of_keeps "log" fun _ _ _ _ _ hdraft => hdraft
    · exact Field.of_keeps "stream" fun _ _ _ _ _ hdraft => hdraft
    · exact Field.of_keeps "time" fun _ _ _ _ hread _ => shown_of_timestamp hread
  simp only [decodeJson] at h
  split at h
  · next hparse =>
    cases h
    exact Shape.parse_keeps hblank hfields hparse
  · cases h

theorem shown_of_decodeTagged {line : List Char} {record : Record}
    (h : decodeTagged line = .ok record) : record.timestamp.Shown := by
  simp only [decodeTagged] at h
  split at h
  · cases h
  · split at h
    · cases h
    · next hread =>
      cases h
      exact shown_of_readStrict hread

theorem shown_of_decode {line : List Char} {record : Record} (h : decode line = .ok record) :
    record.timestamp.Shown := by
  unfold decode at h
  split at h
  · exact shown_of_decodeJson h
  · exact shown_of_decodeTagged h

theorem shown_of_decodeLine {line : List UInt8} {record : Record}
    (h : decodeLine line = .ok record) : record.timestamp.Shown := by
  simp only [decodeLine] at h
  split at h
  · next hdecode =>
    cases h
    exact shown_of_decode hdecode
  · cases h

theorem forall₂_of_decodeLines {lines : List (List UInt8)} {records : List Record}
    (h : decodeLines lines = .ok records) :
    List.Forall₂ (fun line record => decodeLine line = .ok record) lines records := by
  induction lines generalizing records with
  | nil =>
    cases h
    exact .nil
  | cons line lines ih =>
    simp only [decodeLines] at h
    split at h
    · cases h
    · next hline =>
      split at h
      · cases h
      · next hlines =>
        cases h
        exact .cons hline (ih hlines)

theorem shown_of_forall₂ {lines : List (List UInt8)} {records : List Record}
    (h : List.Forall₂ (fun line record => decodeLine line = .ok record) lines records) :
    ∀ record ∈ records, record.timestamp.Shown := by
  induction h with
  | nil => simp
  | cons hline _ ih => exact List.forall_mem_cons.mpr ⟨shown_of_decodeLine hline, ih⟩

theorem exists_malformed_of_decodeLines {lines : List (List UInt8)} {malformed : Malformed}
    (h : decodeLines lines = .error malformed) :
    ∃ line ∈ lines, decodeLine line = .error malformed := by
  induction lines with
  | nil => cases h
  | cons line lines ih =>
    simp only [decodeLines] at h
    split at h
    · next hline =>
      cases h
      exact ⟨line, List.mem_cons_self, hline⟩
    · split at h
      · next hlines =>
        cases h
        obtain ⟨later, hlater, hmalformed⟩ := ih hlines
        exact ⟨later, List.mem_cons_of_mem _ hlater, hmalformed⟩
      · cases h

namespace Record

def members (record : Record) : List (String × String) :=
  [("timestamp", String.ofList (record.timestamp.text .shortest)),
    ("stream", record.stream.name), ("payload", record.payload)]

theorem toValue_eq (record : Record) : record.toValue = .object (stringMembers record.members) :=
  rfl

def change (instant : Instant) (member : String × String) (record : Record) : Record :=
  if member.1 = "timestamp" then { record with timestamp := instant }
  else if member.1 = "stream" then { record with stream := .ofName member.2 }
  else { record with payload := member.2 }

theorem shape_stores {record : Record} (h : record.timestamp.Shown) :
    ∀ member ∈ record.members,
      shape.Stores StringText member (change record.timestamp member) := by
  have hread : readLenient (String.ofList (record.timestamp.text .shortest)).toList =
      .ok record.timestamp := by
    rw [String.toList_ofList]
    exact readLenient_text h .shortest
  simp only [members, List.forall_mem_cons]
  refine ⟨⟨_, rfl, fun _ hw => ?_⟩, ⟨_, rfl, fun _ hw => ?_⟩, ⟨_, rfl, fun _ hw => ?_⟩, by simp⟩
  · exact Field.of_takes (Reader.timestamp_takes hw hread) "timestamp" _
  · exact Field.of_takes (Reader.named_takes _ hw) "stream" _
  · exact Field.of_takes (Reader.named_takes _ hw) "payload" _

/-- A record is read back from the object that it is printed as. -/
theorem parse_toValue {record : Record} (h : record.timestamp.Shown) :
    parse shape.read record.toValue.chars = .ok record := by
  have htext : Spaced (ObjectText StringText record.members) record.toValue.chars := by
    rw [toValue_eq]
    exact spaced_self (objectText_chars (by simp [members]))
  have hwhole : ∀ field ∈ shape.fields, field.name ∈ record.members.map Prod.fst := by
    intro field hfield
    simp only [shape, List.mem_cons, List.not_mem_nil, or_false] at hfield
    rcases hfield with rfl | rfl | rfl <;> simp [members, Field.of]
  rw [shape.parse_object htext (change record.timestamp) (shape_stores h) (by simp [members])
    hwhole]
  simp [members, change]

/-- Whether a printed line is one line and says exactly what the record says. -/
def IsPrintedAs (record : Record) (line : String) : Prop :=
  '\n' ∉ line.toList ∧ parse shape.read line.toList = .ok record

theorem isPrintedAs_text {record : Record} (h : record.timestamp.Shown) :
    record.IsPrintedAs record.toValue.text := by
  rw [IsPrintedAs, Value.text, String.toList_ofList]
  refine ⟨fun hfeed => ?_, parse_toValue h⟩
  have hprintable := isPrintable_chars record.toValue '\n' hfeed
  exact absurd hprintable (by decide)

end Record

theorem recordsOf_eq_ok {file : String} {content : Except Host.IoFault (List UInt8)}
    {records : List Record} (h : recordsOf file content = .ok records) :
    ∃ bytes, content = .ok bytes ∧
      List.Forall₂ (fun line record => decodeLine line = .ok record)
        (splitLines bytes) records := by
  cases content with
  | error fault => cases h
  | ok bytes =>
    simp only [recordsOf, hostResult, contentRecords] at h
    split at h
    · cases h
    · next hread =>
      cases h
      exact ⟨bytes, rfl, forall₂_of_decodeLines hread⟩

theorem recordsOf_eq_error {file : String} {content : Except Host.IoFault (List UInt8)}
    {error : Error} (h : recordsOf file content = .error error) :
    (∃ fault, content = .error fault ∧ error = .io file fault) ∨
      ∃ bytes malformed, content = .ok bytes ∧ error = .ofMalformed malformed ∧
        ∃ line ∈ splitLines bytes, decodeLine line = .error malformed := by
  cases content with
  | error fault =>
    cases h
    exact .inl ⟨fault, rfl, rfl⟩
  | ok bytes =>
    simp only [recordsOf, hostResult, contentRecords] at h
    split at h
    · next hread =>
      cases h
      exact .inr ⟨bytes, _, rfl, rfl, exists_malformed_of_decodeLines hread⟩
    · cases h

end Log

namespace CommandLine

open ContainerCheck.Log

variable {σ : Type}

/-- What is printed is found again by cutting the text at its newlines, the last of which ends it. -/
theorem splitOn_printed {lines : List String} (h : ∀ line ∈ lines, '\n' ∉ line.toList) :
    (printed lines).toList.splitOn '\n' = lines.map String.toList ++ [[]] := by
  induction lines with
  | nil => rfl
  | cons line lines ih =>
    obtain ⟨hline, hlines⟩ := List.forall_mem_cons.mp h
    have htext : (printed (line :: lines)).toList = line.toList ++ '\n' :: (printed lines).toList := by
      simp [printed, String.join_cons]
    have hwhole : line.toList.splitOnP (· == '\n') = [line.toList] :=
      List.splitOnP_eq_singleton fun c hc => by simpa using ne_of_mem_of_not_mem hc hline
    rw [htext, List.splitOn, List.splitOnP_append_cons _ _ (by decide), hwhole, ← List.splitOn,
      ih hlines]
    rfl

/-- Records are printed if every line of the file decodes. Cut at its newlines, the text falls into
one line for each record, which says all of it, and nothing behind the last newline. If a line does
not decode, or there is no file, nothing is printed but that error. -/
theorem parse_json_lossless (config : Config) (file : String) (w : World σ) :
    match recordsOf file (w.tree.read file) with
    | .ok records =>
      (∃ content, w.tree.read file = .ok content ∧
        List.Forall₂ (fun line record => decodeLine line = .ok record) (splitLines content)
          records) ∧
      ∃ text lines, ((Command.parse file true).run config w).1 = .ok text ∧
        text.toList.splitOn '\n' = lines.map String.toList ++ [[]] ∧
        List.Forall₂ Record.IsPrintedAs records lines
    | .error error =>
      ((∃ fault, w.tree.read file = .error fault ∧ error = .io file fault) ∨
        ∃ content malformed, w.tree.read file = .ok content ∧ error = .ofMalformed malformed ∧
          ∃ line ∈ splitLines content, decodeLine line = .error malformed) ∧
      ((Command.parse file true).run config w).1 = .error error := by
  have hrun : ((Command.parse file true).run config w).1 =
      match recordsOf file (w.tree.read file) with
      | .ok records => .ok (printed (recordLines file true records))
      | .error error => .error error := by
    simp only [Command.run, Session.bind_run, Session.readLog, Session.inspect]
    cases recordsOf file (w.tree.read file) <;> rfl
  split
  · next records hrecords =>
    obtain ⟨content, hcontent, hlines⟩ := recordsOf_eq_ok hrecords
    have hshown : ∀ record ∈ records, record.IsPrintedAs record.toValue.text := fun record hmem =>
      Record.isPrintedAs_text (shown_of_forall₂ hlines record hmem)
    have hwhole : ∀ line ∈ recordLines file true records, '\n' ∉ line.toList := by
      intro line hline
      obtain ⟨record, hmem, rfl⟩ := List.mem_map.mp hline
      exact (hshown record hmem).1
    refine ⟨⟨content, hcontent, hlines⟩, _, recordLines file true records, ?_,
      splitOn_printed hwhole, ?_⟩
    · rw [hrun, hrecords]
    · simpa [recordLines, List.forall₂_map_right_iff, List.forall₂_same] using hshown
  · next error herror =>
    refine ⟨recordsOf_eq_error herror, ?_⟩
    rw [hrun, herror]

end CommandLine

end ContainerCheck
