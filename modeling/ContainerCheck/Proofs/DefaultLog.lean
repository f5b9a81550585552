import ContainerCheck.Proofs.GrowingLogs
import ContainerCheck.Proofs.LogAccounts
import ContainerCheck.Proofs.SandboxCalls

namespace ContainerCheck.Log

open ContainerCheck.Text ContainerCheck.Time

/-- What is left of a text when it is read as the end of a line. -/
def withoutReturn (text : List Char) : List Char :=
  if text.getLast? = some '\r' then text.dropLast else text

theorem withoutReturn_eq_iff {text : List Char} :
    withoutReturn text = text ↔ text.getLast? ≠ some '\r' := by
  unfold withoutReturn
  split
  · next h =>
    have hne : text ≠ [] := by
      rintro rfl
      cases h
    have hshorter : text.dropLast ≠ text := by
      intro heq
      have hlength := congrArg List.length heq
      have hpos := List.length_pos_iff.mpr hne
      rw [List.length_dropLast] at hlength
      omega
    simp [h, hshorter]
  · next h => simp [h]

theorem withoutReturn_append (text : List Char) {message : List Char} (h : message ≠ []) :
    withoutReturn (text ++ message) = text ++ withoutReturn message := by
  obtain ⟨start, last, rfl⟩ := List.eq_nil_or_concat message |>.resolve_left h
  unfold withoutReturn
  simp only [List.concat_eq_append, ← List.append_assoc, List.getLast?_concat, List.dropLast_concat]
  split <;> simp

/-- The carriage return that ends the bytes of a text is the one that ends the text. -/
theorem trimReturn_encode (text : List Char) :
    trimReturn (encode text) = encode (withoutReturn text) := by
  rcases List.eq_nil_or_concat text with rfl | ⟨start, last, rfl⟩
  · rfl
  · have hbytes : encode (start.concat last) = encode start ++ String.utf8EncodeChar last := by
      simp [encode]
    by_cases hlast : last = '\r'
    · subst hlast
      have hreturn : encode (start.concat '\r') = encode start ++ [13] := hbytes
      rw [hreturn, List.concat_eq_append]
      simp [trimReturn, withoutReturn]
    · have hend : (encode (start.concat last)).getLast? ≠ some 13 := by
        intro h
        have hne : String.utf8EncodeChar last ≠ [] := by
          rw [← List.length_pos_iff, String.length_utf8EncodeChar]
          exact last.utf8Size_pos
        rw [hbytes, List.getLast?_append_of_ne_nil _ hne] at h
        have hmem := (mem_utf8EncodeChar_iff (by decide) last).mp (List.mem_of_getLast? h)
        exact hlast (Char.ext (UInt32.toNat_inj.mp hmem))
      rw [trimReturn, if_neg hend, withoutReturn, if_neg (by simpa using hlast)]

section

variable {stamp message : List Char} {instant : Instant}

def messageText (stamp message : List Char) : List Char :=
  stamp ++ ' ' :: ("stdout".toList ++ ' ' :: ("F".toList ++ ' ' :: message))

theorem withoutReturn_messageText (stamp message : List Char) :
    withoutReturn (messageText stamp message) = messageText stamp (withoutReturn message) := by
  have hsplit : ∀ rest, messageText stamp rest = (stamp ++ " stdout F".toList) ++ ' ' :: rest := by
    simp [messageText]
  rw [hsplit, hsplit, withoutReturn_append _ (List.cons_ne_nil _ _)]
  congr 1
  by_cases h : message = []
  · rw [h]
    decide
  · exact withoutReturn_append [' '] h

theorem decodeLine_message (hread : readStrict stamp = .ok instant) (hstamp : ' ' ∉ stamp)
    (message : List Char) :
    decodeLine (encode (messageText stamp message)) =
      .ok ⟨instant, .stdout, String.ofList (withoutReturn message ++ ['\n'])⟩ := by
  have htext : decodeLossy (encode (messageText stamp (withoutReturn message))) =
      messageText stamp (withoutReturn message) := by
    have h := decodeLossy_encode_append (messageText stamp (withoutReturn message)) []
    rwa [List.append_nil, show decodeLossy [] = [] from rfl, List.append_nil] at h
  have hline : decode (messageText stamp (withoutReturn message)) =
      .ok ⟨instant, .ofName (String.ofList "stdout".toList),
        String.ofList (withoutReturn message ++ ['\n'])⟩ :=
    decode_taggedLine hread hstamp (by decide) (by decide) (withoutReturn message)
  simp only [decodeLine, trimReturn_encode, withoutReturn_messageText, htext, hline]
  rfl

theorem newline_not_mem_message (hread : readStrict stamp = .ok instant) (h : '\n' ∉ message) :
    10 ∉ encode (messageText stamp message) := by
  have hstamp : '\n' ∉ stamp := by
    intro hmem
    have hchar := (stamp_of_readStrict hread).2 '\n' hmem
    revert hchar
    decide
  rw [newline_mem_encode_iff]
  simp [messageText, hstamp, h]

/-- The records of a file with a message among other lines. -/
theorem readRecords_message (hread : readStrict stamp = .ok instant) (hstamp : ' ' ∉ stamp)
    (h : '\n' ∉ message) {before after : List UInt8} (hwhole : IsWhole before)
    {first later : List Record} (hbefore : readRecords before = .ok first)
    (hafter : readRecords after = .ok later) :
    readRecords (before ++ (encode (messageText stamp message ++ ['\n']) ++ after)) =
      .ok (first ++
        ⟨instant, .stdout, String.ofList (withoutReturn message ++ ['\n'])⟩ :: later) := by
  rw [readRecords_append_eq_ok_iff hwhole]
  refine ⟨first, _, hbefore, ?_, rfl⟩
  have hfeed : encode ['\n'] = [10] := by decide
  rw [encode_append, hfeed, List.append_assoc]
  exact readRecords_line (newline_not_mem_message hread h) (decodeLine_message hread hstamp message)
    hafter

theorem contains_insert (first later : List Record) (record : Record) (payload : String)
    (stream : LogStream) :
    contains (first ++ record :: later) payload stream =
      (record.carries payload stream || contains (first ++ later) payload stream) := by
  simp [contains, Bool.or_left_comm]

end

end ContainerCheck.Log

namespace ContainerCheck.Check

open ContainerCheck.Cri ContainerCheck.Log ContainerCheck.Text ContainerCheck.Time

theorem verifyLog_eq_ok_iff {σ : Type} {path payload : String} {stream : LogStream} {w : World σ}
    {records : List Record} (h : (Session.readLog path w).1 = .ok records) :
    (verifyLog path payload stream w).1 = .ok () ↔ contains records payload stream = true := by
  rw [← requireMessage_eq_ok_iff]
  simp only [verifyLog, Session.bind_run]
  rcases hread : Session.readLog path w with ⟨result, w'⟩
  rw [hread] at h
  cases h
  exact Iff.rfl

namespace Harness

/-- A log that holds the configured message passes the check for it, unless the message ends in a
carriage return and no other record of the log happens to match. -/
theorem verifyDefaultLog_eq_ok_iff {σ : Type} (h : Harness σ) (hvalid : h.config.validate = .ok ())
    {stamp : List Char} {instant : Instant} (hread : readStrict stamp = .ok instant)
    (hstamp : ' ' ∉ stamp) {before after : List UInt8} (hwhole : IsWhole before)
    {first later : List Record} (hbefore : readRecords before = .ok first)
    (hafter : readRecords after = .ok later) {path : String} {w : World σ}
    (hfile : w.tree.read path = .ok (before ++
      (encode (messageText stamp h.config.defaultLog.toList ++ ['\n']) ++ after))) :
    (h.verifyDefaultLog path w).1 = .ok () ↔
      h.config.defaultLog.toList.getLast? ≠ some '\r' ∨
        contains (first ++ later) (h.config.defaultLog ++ "\n") .stdout = true := by
  have hline := (Config.validate_eq_ok_iff.mp hvalid).2.2.2
  have hrecords := readRecords_message hread hstamp hline hwhole hbefore hafter
  have hlog : (Session.readLog path w).1 = .ok (first ++
      ⟨instant, .stdout, String.ofList (withoutReturn h.config.defaultLog.toList ++ ['\n'])⟩ ::
        later) := by
    rw [readLog_of_read hfile, contentRecords, hrecords]
  have hsame : String.ofList (withoutReturn h.config.defaultLog.toList ++ ['\n']) =
      h.config.defaultLog ++ "\n" ↔ h.config.defaultLog.toList.getLast? ≠ some '\r' := by
    rw [← withoutReturn_eq_iff, ← String.toList_inj]
    simp
  rw [verifyDefaultLog, verifyLog_eq_ok_iff hlog, ← hsame, contains_insert, Bool.or_eq_true,
    Record.carries_eq_true_iff, and_iff_left rfl]

def returnLog : List UInt8 := encode "2016-10-06T00:17:09Z stdout F hello\r\n".toList

theorem readRecords_returnLog :
    (readStrict "2016-10-06T00:17:09Z".toList).toOption = some ⟨1475713029, 0⟩ ∧
      IsWhole helloLog ∧ (readRecords returnLog).toOption = some [helloRecord] := by
  decide +kernel

/-- A message with a carriage return inside, behind another line. -/
theorem verifyDefaultLog_eq_ok_iff_innerReturn :
    let h : Harness Unit := ⟨.unavailable, { defaultLog := "hello\rWorld" }⟩
    let stamp := "2016-10-06T00:17:09Z".toList
    let content := helloLog ++ (encode (messageText stamp "hello\rWorld".toList ++ ['\n']) ++ [])
    h.config.validate = .ok () ∧ readStrict stamp = .ok ⟨1475713029, 0⟩ ∧ ' ' ∉ stamp ∧
      IsWhole helloLog ∧ readRecords helloLog = .ok [helloRecord] ∧ readRecords [] = .ok [] ∧
      (worldWithLog content).tree.read "a.log" = .ok content ∧
      (h.verifyDefaultLog "a.log" (worldWithLog content)).1 = .ok () := by
  intro h stamp content
  have hvalid : h.config.validate = .ok () := Config.validate_eq_ok_iff.mpr (by decide)
  have hread : readStrict stamp = .ok ⟨1475713029, 0⟩ := eq_ok_of_toOption readRecords_returnLog.1
  have hstamp : ' ' ∉ stamp := by decide
  have hwhole : IsWhole helloLog := readRecords_returnLog.2.1
  have hfile : (worldWithLog content).tree.read "a.log" = .ok content := read_worldWithLog content
  exact ⟨hvalid, hread, hstamp, hwhole, readRecords_helloLog, rfl, hfile,
    (h.verifyDefaultLog_eq_ok_iff hvalid hread hstamp hwhole readRecords_helloLog rfl hfile).mpr
      (.inl (by decide))⟩

/-- The configured message `hello\r` is not found in a log that holds it. -/
theorem verifyDefaultLog_lostReturn :
    let h : Harness Unit := ⟨.unavailable, { defaultLog := "hello\r" }⟩
    let content := encode "2016-10-06T00:17:09Z stdout F hello\r\n".toList
    h.config.validate = .ok () ∧
      readStrict "2016-10-06T00:17:09Z".toList = .ok ⟨1475713029, 0⟩ ∧
      (worldWithLog content).tree.read "a.log" = .ok content ∧
      (h.verifyDefaultLog "a.log" (worldWithLog content)).1 ≠ .ok () := by
  intro h content
  obtain ⟨hstamp, -, hrecords⟩ := readRecords_returnLog
  have hfile : (worldWithLog content).tree.read "a.log" = .ok content := read_worldWithLog content
  refine ⟨Config.validate_eq_ok_iff.mpr (by decide), eq_ok_of_toOption hstamp, hfile, ?_⟩
  have hlog : (Session.readLog "a.log" (worldWithLog content)).1 = .ok [helloRecord] := by
    rw [readLog_of_read hfile, contentRecords, show content = returnLog from rfl,
      eq_ok_of_toOption hrecords]
  rw [verifyDefaultLog, Ne, verifyLog_eq_ok_iff hlog]
  decide

end Harness

end ContainerCheck.Check
