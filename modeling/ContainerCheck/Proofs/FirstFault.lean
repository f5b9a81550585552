import ContainerCheck.Proofs.GrowingLogs

namespace ContainerCheck.Log

open ContainerCheck.Text

/-- A line of a file, what stands on it and what ends it. -/
structure FileLine where
  body : List UInt8
  /-- Whether a carriage return is at its end. -/
  returned : Bool
  /-- Whether a line feed follows. -/
  fed : Bool

namespace FileLine

def raw (line : FileLine) : List UInt8 := line.body ++ if line.returned then [13] else []

def bytes (line : FileLine) : List UInt8 := line.raw ++ if line.fed then [10] else []

def text (line : FileLine) : List Char := decodeLossy line.body

/-- Whether this is one line of a file that goes on with the bytes behind it. -/
structure IsBefore (line : FileLine) (later : List UInt8) : Prop where
  single : 10 ∉ line.body
  /-- The last carriage return is not part of the body. -/
  trimmed : line.body.getLast? = some 13 → line.returned = true
  /-- Only the last line lacks its line feed, and it is not empty then. -/
  last : line.fed = false → later = [] ∧ line.raw ≠ []

theorem newline_not_mem_raw {line : FileLine} (h : 10 ∉ line.body) : 10 ∉ line.raw := by
  cases hreturned : line.returned <;> simp [raw, hreturned, h]

theorem IsBefore.trimReturn_raw {line : FileLine} {later : List UInt8} (h : line.IsBefore later) :
    trimReturn line.raw = line.body := by
  cases hreturned : line.returned with
  | true => simp [raw, hreturned, trimReturn]
  | false =>
    have hend : line.body.getLast? ≠ some 13 := fun hlast => by
      simp [h.trimmed hlast] at hreturned
    simp [raw, hreturned, trimReturn, hend]

def ofRaw (raw : List UInt8) (fed : Bool) : FileLine where
  body := trimReturn raw
  returned := raw.getLast? = some 13
  fed := fed

theorem raw_ofRaw (line : List UInt8) (fed : Bool) : (ofRaw line fed).raw = line := by
  by_cases h : line.getLast? = some 13
  · obtain ⟨body, rfl⟩ := List.getLast?_eq_some_iff.mp h
    simp [raw, ofRaw, trimReturn]
  · simp [raw, ofRaw, trimReturn, h]

theorem bytes_ofRaw (line : List UInt8) (fed : Bool) :
    (ofRaw line fed).bytes = line ++ if fed then [10] else [] := by
  rw [bytes, raw_ofRaw]
  rfl

theorem isBefore_ofRaw {line later : List UInt8} {fed : Bool} (hsingle : 10 ∉ line)
    (hlast : fed = false → later = [] ∧ line ≠ []) : (ofRaw line fed).IsBefore later where
  single h := by
    rw [← raw_ofRaw line fed, raw] at hsingle
    exact hsingle (List.mem_append_left _ h)
  trimmed h := by
    by_cases hreturn : line.getLast? = some 13
    · simpa [ofRaw] using hreturn
    · simp [ofRaw, trimReturn, hreturn] at h
  last h := by
    rw [raw_ofRaw]
    exact hlast h

end FileLine

section

variable {line : FileLine} {content later : List UInt8}

theorem decodeLine_raw (h : line.IsBefore later) :
    decodeLine line.raw = decodeText decode line.text := by
  rw [decodeLine, h.trimReturn_raw]
  rfl

theorem splitLines_bytes (h : line.IsBefore later) :
    splitLines (line.bytes ++ later) = line.raw :: splitLines later := by
  have hsingle := FileLine.newline_not_mem_raw h.single
  cases hfed : line.fed with
  | true => simp [FileLine.bytes, hfed, splitLines_line hsingle]
  | false =>
    obtain ⟨rfl, hne⟩ := h.last hfed
    simp [FileLine.bytes, hfed, splitLines_last hsingle hne]

/-- A file that is not empty begins with a line. -/
theorem exists_line (hne : content ≠ []) :
    ∃ (line : FileLine) (later : List UInt8), content = line.bytes ++ later ∧
      line.IsBefore later := by
  by_cases hfeed : 10 ∈ content
  · obtain ⟨raw, later, rfl, hsingle⟩ := List.eq_append_cons_of_mem hfeed
    refine ⟨.ofRaw raw true, later, ?_, FileLine.isBefore_ofRaw hsingle fun h => by cases h⟩
    simp [FileLine.bytes_ofRaw]
  · refine ⟨.ofRaw content false, [], ?_, FileLine.isBefore_ofRaw hfeed fun _ => ⟨rfl, hne⟩⟩
    simp [FileLine.bytes_ofRaw]

/-- A line is decoded before the lines behind it. -/
theorem readRecords_bytes (h : line.IsBefore later) :
    readRecords (line.bytes ++ later) = do
      let record ← decodeText decode line.text
      let records ← readRecords later
      return record :: records := by
  rw [readRecords, splitLines_bytes h, decodeLines, decodeLine_raw h, readRecords]
  cases decodeText decode line.text with
  | error malformed => rfl
  | ok record => cases decodeLines (splitLines later) <;> rfl

/-- A line that others follow is whole, and it would be a line in front of anything. -/
theorem FileLine.IsBefore.of_ne_nil (h : line.IsBefore later) (hne : later ≠ []) :
    IsWhole line.bytes ∧ ∀ other, line.IsBefore other := by
  have hfed : line.fed = true := by
    cases hfed : line.fed with
    | true => rfl
    | false => exact absurd (h.last hfed).1 hne
  refine ⟨.inr (by simp [bytes, hfed]), fun other => ⟨h.single, h.trimmed, fun hlast => ?_⟩⟩
  rw [hfed] at hlast
  cases hlast

theorem FileLine.IsBefore.bytes_ne_nil (h : line.IsBefore later) : line.bytes ≠ [] := by
  cases hfed : line.fed with
  | true => simp [bytes, hfed]
  | false => simp [bytes, hfed, (h.last hfed).2]

/-- The first line that does not decode is what a file fails with. -/
theorem readRecords_eq_error_iff {malformed : Malformed} :
    readRecords content = .error malformed ↔
      ∃ before line later, content = before ++ (FileLine.bytes line ++ later) ∧ IsWhole before ∧
        line.IsBefore later ∧ (∃ records, readRecords before = .ok records) ∧
        decodeText decode line.text = .error malformed := by
  constructor
  · intro h
    -- The file gets shorter with each line that decodes.
    induction hlength : content.length using Nat.strong_induction_on generalizing content with
    | _ length ih =>
      have hne : content ≠ [] := by
        rintro rfl
        cases h
      obtain ⟨line, later, rfl, hline⟩ := exists_line hne
      rw [readRecords_bytes hline] at h
      cases htext : decodeText decode line.text with
      | error first =>
        rw [htext] at h
        cases h
        exact ⟨[], line, later, rfl, isWhole_nil, hline, ⟨[], rfl⟩, htext⟩
      | ok record =>
        have hlater : readRecords later = .error malformed := by
          rw [htext] at h
          cases hrest : readRecords later with
          | error first =>
            rw [hrest] at h
            cases h
            rfl
          | ok records =>
            rw [hrest] at h
            cases h
        have hshorter : later.length < length := by
          have hpos := List.length_pos_of_ne_nil hline.bytes_ne_nil
          rw [List.length_append] at hlength
          omega
        obtain ⟨before, fault, rest, rfl, hwhole, hfault, ⟨records, hrecords⟩, hmalformed⟩ :=
          ih _ hshorter hlater rfl
        have hne : before ++ (fault.bytes ++ rest) ≠ [] := by simp [hfault.bytes_ne_nil]
        obtain ⟨hfirst, hbefore⟩ := hline.of_ne_nil hne
        refine ⟨line.bytes ++ before, fault, rest, (List.append_assoc ..).symm,
          hfirst.append hwhole, hfault, ⟨record :: records, ?_⟩, hmalformed⟩
        rw [readRecords_bytes (hbefore before), htext, hrecords]
        rfl
  · rintro ⟨before, line, later, rfl, hwhole, hline, ⟨records, hrecords⟩, hfault⟩
    rw [readRecords_append hwhole, hrecords, readRecords_bytes hline, hfault]
    rfl

theorem contentRecords_eq_error_iff {error : Error} :
    contentRecords content = .error error ↔
      ∃ malformed, readRecords content = .error malformed ∧ error = .ofMalformed malformed := by
  rw [contentRecords]
  cases readRecords content with
  | ok records => simp
  | error malformed => simp [eq_comm]

theorem contentRecords_eq_ok_iff {records : List Record} :
    contentRecords content = .ok records ↔ readRecords content = .ok records := by
  rw [contentRecords]
  cases readRecords content <;> simp

theorem contentRecords_append {before : List UInt8} (h : IsWhole before) (later : List UInt8) :
    contentRecords (before ++ later) = do
      let first ← contentRecords before
      let rest ← contentRecords later
      return first ++ rest := by
  rw [contentRecords, readRecords_append h, contentRecords, contentRecords]
  cases readRecords before with
  | error malformed => rfl
  | ok first => cases readRecords later <;> rfl

end

structure IsReading (content : List UInt8) (result : Except Error (List Record)) : Prop where
  /-- It depends on the content only. -/
  same : result = contentRecords content
  /-- It can be read in parts if the first part ends where a line ends; the first failure is that of
  the whole. -/
  parts : ∀ before later, content = before ++ later → IsWhole before →
    result = do
      let first ← contentRecords before
      let rest ← contentRecords later
      return first ++ rest
  /-- There is a record for each line feed, and one for a last line without. -/
  length : ∀ records, result = .ok records →
    records.length =
      content.count 10 + if content ≠ [] ∧ content.getLast? ≠ some 10 then 1 else 0
  /-- A failure is that of the first line that does not decode, and quotes its text. -/
  fault : ∀ error, result = .error error ↔
    ∃ (before : List UInt8) (line : FileLine) (later : List UInt8) (fault : LineFault),
      content = before ++ (line.bytes ++ later) ∧ IsWhole before ∧ line.IsBefore later ∧
      (∃ records, contentRecords before = .ok records) ∧ decode line.text = .error fault ∧
      error = .malformed (String.ofList line.text) fault

/-- A log is read line by line, up to the first line that does not decode. -/
theorem readLog_byLines {σ : Type} {path : String} {w : World σ} {content : List UInt8}
    (h : w.tree.read path = .ok content) : IsReading content (Session.readLog path w).1 := by
  rw [readLog_of_read h]
  refine ⟨rfl, ?_, ?_, ?_⟩
  · rintro before later rfl hwhole
    exact contentRecords_append hwhole later
  · intro records hrecords
    rw [length_of_readRecords (contentRecords_eq_ok_iff.mp hrecords)]
    by_cases hwhole : IsWhole content
    · have hlast : ¬ (content ≠ [] ∧ content.getLast? ≠ some 10) := by
        simpa [IsWhole, or_iff_not_imp_left] using hwhole
      rw [if_pos hwhole, if_neg hlast]
    · rw [if_neg hwhole, if_pos (not_or.mp hwhole)]
  · intro error
    simp only [contentRecords_eq_error_iff, readRecords_eq_error_iff, contentRecords_eq_ok_iff,
      decodeText_eq_error_iff]
    constructor
    · rintro ⟨_, ⟨before, line, later, hcontent, hwhole, hline, hbefore, fault, hfault, rfl⟩, rfl⟩
      exact ⟨before, line, later, fault, hcontent, hwhole, hline, hbefore, hfault, rfl⟩
    · rintro ⟨before, line, later, fault, hcontent, hwhole, hline, hbefore, hfault, rfl⟩
      exact ⟨_, ⟨before, line, later, hcontent, hwhole, hline, hbefore, fault, hfault, rfl⟩, rfl⟩

def junkLine : FileLine := ⟨encode "junk".toList, true, true⟩

/-- The line fails the file, although the lines before and behind it decode. -/
theorem readLog_byLines_junk :
    (worldWithLog (helloLog ++ (junkLine.bytes ++ helloLog))).tree.read "a.log" =
        .ok (helloLog ++ (junkLine.bytes ++ helloLog)) ∧
      (Session.readLog "a.log" (worldWithLog (helloLog ++ (junkLine.bytes ++ helloLog)))).1 =
        .error (.malformed "junk" .fewFields) := by
  have hfile := read_worldWithLog (helloLog ++ (junkLine.bytes ++ helloLog))
  have hline : junkLine.IsBefore helloLog :=
    ⟨by decide +kernel, by decide +kernel, fun h => by cases h⟩
  have hhello := contentRecords_eq_ok_iff.mpr readRecords_helloLog
  have hfault : decode junkLine.text = .error .fewFields := by
    rw [show junkLine.text = "junk".toList by decide +kernel]
    rfl
  have hquoted : String.ofList junkLine.text = "junk" := by decide +kernel
  rw [← hquoted]
  exact ⟨hfile, ((readLog_byLines hfile).fault _).mpr
    ⟨helloLog, junkLine, helloLog, .fewFields, rfl, by decide +kernel, hline, ⟨_, hhello⟩, hfault,
      rfl⟩⟩

end ContainerCheck.Log
