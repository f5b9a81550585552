import ContainerCheck.Proofs.DefaultLog
import ContainerCheck.Proofs.FirstFault
import ContainerCheck.Proofs.PrintedRecords
import ContainerCheck.Proofs.ReadObjects
import ContainerCheck.Proofs.TaggedLines

namespace ContainerCheck.Log

open ContainerCheck.Text ContainerCheck.Time ContainerCheck.Json

def lineText (line : List UInt8) : List Char := decodeLossy (trimReturn line)

def Decodes (line : List Char) : Prop := ∃ record, decode line = .ok record

/-- A line says a payload on a stream: in the second field and the content, or in two members. -/
inductive SaysMessage (payload : String) (stream : LogStream) : List Char → Prop
  | tagged {fields : TaggedFields} (hcut : fields.IsCut) (hkind : encodingOf fields.text = .tagged)
    (hstream : fields.stream = stream.name.toList)
    (hpayload : fields.content ++ ['\n'] = payload.toList) : SaysMessage payload stream fields.text
  | object {members : List RawMember} {line : List Char} (hline : Spaced (RawObject members) line)
    (hstream : ∃ value, valuesOf members .stream = [value] ∧ StringText stream.name value)
    (hpayload : ∃ value, valuesOf members .log = [value] ∧ StringText payload value) :
    SaysMessage payload stream line

section

variable {members : List RawMember} {line : List Char} {record : Record} {payload : String}
  {stream : LogStream}

/-- An object is decoded as a JSON line. -/
theorem decode_of_rawObject (h : Spaced (RawObject members) line) :
    decode line = .ok record ↔ MembersTell members record := by
  obtain ⟨before, object, after, hbefore, hobject, hafter, rfl⟩ := h
  have hkind : encodingOf (before ++ (object ++ after)) = .json := by
    rw [← encodingOf_skipSpaces, skipSpaces_append hbefore, encodingOf_skipSpaces]
    cases hobject <;> exact encodingOf_cons (by decide) _
  have htaken := (takesObject hbefore hobject : TakesObject members after _).accepted record
  rw [decodeText_eq_ok_iff] at htaken
  rw [decode, hkind]
  simp only [htaken, and_iff_right hafter]

theorem takesJson_lineTexts : ∀ field ∈ lineTextsShape.fields, field.read.TakesJson := by
  simp only [lineTextsShape, List.forall_mem_cons]
  exact ⟨Field.of_takesJson (Reader.named_takesJson _) _ _,
    Field.of_takesJson (Reader.named_takesJson _) _ _,
    Field.of_takesJson (Reader.named_takesJson _) _ _, List.forall_mem_nil _⟩

/-- What is decoded as a JSON line is an object, if it is no list. -/
theorem exists_rawObject_of_decodeJson (h : decodeJson line = .ok record) (hlist : ¬ IsList line) :
    ∃ members, Spaced (RawObject members) line := by
  obtain ⟨c, tail, hskip, hc⟩ := bracket_of_decodeJson h
  have hbrace : (skipSpaces line).head? = some '\x7b' := by
    rw [IsList, hskip] at hlist
    rw [hskip, hc.resolve_right fun hbracket => hlist (congrArg some hbracket)]
    rfl
  obtain ⟨texts, hparse, -⟩ := decodeJson_eq_ok_iff_texts.mp h
  obtain ⟨rest, hread, hend⟩ := parse_eq_ok_iff.mp hparse
  obtain ⟨spaces, members, object, hspaces, hobject, rfl⟩ :=
    Shape.exists_rawObject_of_read takesJson_lineTexts hbrace hread
  exact ⟨members, spaces, object, rest, hspaces, hobject, skipSpaces_eq_nil_iff.mp hend, rfl⟩

/-- A line that decodes says what its record carries. -/
theorem saysMessage_iff (h : decode line = .ok record) :
    SaysMessage payload stream line ↔ record.payload = payload ∧ record.stream = stream := by
  constructor
  · intro hsays
    cases hsays with
    | tagged hcut hkind hstream hpayload =>
      rw [decode, hkind] at h
      have htells := (decodeTagged_text_eq_ok_iff hcut).mp h
      exact ⟨String.toList_inj.mp (htells.payload.trans hpayload),
        LogStream.name_injective (String.toList_inj.mp (htells.stream.trans hstream))⟩
    | object hline hstream hpayload =>
      obtain ⟨⟨log, hlog, hsays⟩, ⟨name, text, hname, htext, hof⟩, -⟩ :=
        (decode_of_rawObject hline).mp h
      obtain ⟨value, hvalue, hspelled⟩ := hstream
      obtain ⟨value', hvalue', hspelled'⟩ := hpayload
      obtain rfl : value = name := List.head_eq_of_cons_eq (hvalue.symm.trans hname)
      obtain rfl : value' = log := List.head_eq_of_cons_eq (hvalue'.symm.trans hlog)
      rw [hof, stringText_unique htext hspelled]
      exact ⟨stringText_unique hsays hspelled', LogStream.ofName_name stream⟩
  · rintro ⟨rfl, rfl⟩
    rcases ((decode_dispatches line).1 record).mp h with htagged | ⟨hjson, hlist⟩
    · have hkind := encodingOf_of_decodeTagged htagged
      cases hcut : cutFields line with
      | none => simp [decodeTagged, hcut] at htagged
      | some fields =>
        obtain ⟨rfl, hfields⟩ := cutFields_eq_some_iff.mp hcut
        have htells := (decodeTagged_text_eq_ok_iff hfields).mp htagged
        exact .tagged hfields hkind htells.stream.symm htells.payload.symm
    · obtain ⟨members, hline⟩ := exists_rawObject_of_decodeJson hjson hlist
      obtain ⟨hlog, ⟨name, text, hname, htext, hof⟩, -⟩ := (decode_of_rawObject hline).mp h
      refine .object hline ⟨name, hname, ?_⟩ hlog
      rwa [hof, LogStream.name_ofName]

theorem decodeLine_eq_ok_iff {line : List UInt8} :
    decodeLine line = .ok record ↔ decode (lineText line) = .ok record := by
  change decodeText decode (lineText line) = .ok record ↔ _
  exact decodeText_eq_ok_iff

/-- Each line has a record, and each record a line. -/
theorem forall_of_forall₂ {lines : List (List UInt8)} {records : List Record}
    (h : List.Forall₂ (fun line record => decodeLine line = .ok record) lines records) :
    (∀ line ∈ lines, ∃ record ∈ records, decode (lineText line) = .ok record) ∧
      ∀ record ∈ records, ∃ line ∈ lines, decode (lineText line) = .ok record := by
  induction h with
  | nil => exact ⟨nofun, nofun⟩
  | @cons line record lines records hline _ ih =>
    have hdecode := decodeLine_eq_ok_iff.mp hline
    constructor
    · refine List.forall_mem_cons.mpr ⟨⟨record, List.mem_cons_self, hdecode⟩, ?_⟩
      intro other hother
      obtain ⟨found, hfound, hrecord⟩ := ih.1 other hother
      exact ⟨found, List.mem_cons_of_mem _ hfound, hrecord⟩
    · refine List.forall_mem_cons.mpr ⟨⟨line, List.mem_cons_self, hdecode⟩, ?_⟩
      intro other hother
      obtain ⟨found, hfound, hrecord⟩ := ih.2 other hother
      exact ⟨found, List.mem_cons_of_mem _ hfound, hrecord⟩

theorem exists_decodeLines {lines : List (List UInt8)}
    (h : ∀ line ∈ lines, Decodes (lineText line)) : ∃ records, decodeLines lines = .ok records := by
  cases hlines : decodeLines lines with
  | ok records => exact ⟨records, rfl⟩
  | error malformed =>
    obtain ⟨line, hline, hfault⟩ := exists_malformed_of_decodeLines hlines
    obtain ⟨record, hrecord⟩ := h line hline
    rw [decodeLine_eq_ok_iff.mpr hrecord] at hfault
    cases hfault

/-- Lines hold a message if all of them decode and one of them says it. -/
def HoldMessage (payload : String) (stream : LogStream) (lines : List (List UInt8)) : Prop :=
  (∀ line ∈ lines, Decodes (lineText line)) ∧
    ∃ line ∈ lines, SaysMessage payload stream (lineText line)

theorem holdMessage_iff {lines : List (List UInt8)} :
    HoldMessage payload stream lines ↔
      ∃ records, decodeLines lines = .ok records ∧ contains records payload stream = true := by
  simp only [contains_eq_true_iff]
  constructor
  · rintro ⟨hall, line, hline, hsays⟩
    obtain ⟨records, hrecords⟩ := exists_decodeLines hall
    obtain ⟨hfinds, -⟩ := forall_of_forall₂ (forall₂_of_decodeLines hrecords)
    obtain ⟨record, hrecord, hdecode⟩ := hfinds line hline
    exact ⟨records, hrecords, record, hrecord, (saysMessage_iff hdecode).mp hsays⟩
  · rintro ⟨records, hrecords, record, hrecord, hcarries⟩
    obtain ⟨hall, hback⟩ := forall_of_forall₂ (forall₂_of_decodeLines hrecords)
    obtain ⟨line, hline, hdecode⟩ := hback record hrecord
    refine ⟨fun line hline => ?_, line, hline, (saysMessage_iff hdecode).mpr hcarries⟩
    obtain ⟨record, -, hdecode⟩ := hall line hline
    exact ⟨record, hdecode⟩

theorem HoldMessage.congr {lines lines' : List (List UInt8)}
    (h : ∀ line, line ∈ lines' ↔ line ∈ lines) :
    HoldMessage payload stream lines' ↔ HoldMessage payload stream lines := by
  simp only [HoldMessage, h]

theorem HoldMessage.append {lines more : List (List UInt8)} (h : HoldMessage payload stream lines)
    (hmore : ∀ line ∈ more, Decodes (lineText line)) :
    HoldMessage payload stream (lines ++ more) := by
  obtain ⟨hall, line, hline, hsays⟩ := h
  exact ⟨List.forall_mem_append.mpr ⟨hall, hmore⟩, line, List.mem_append_left _ hline, hsays⟩

end

def joinLines (lines : List (List UInt8)) : List UInt8 := lines.flatMap fun line => line ++ [10]

theorem splitLines_joinLines {lines : List (List UInt8)} (h : ∀ line ∈ lines, 10 ∉ line) :
    splitLines (joinLines lines) = lines := by
  induction lines with
  | nil => rfl
  | cons line lines ih =>
    rw [List.forall_mem_cons] at h
    rw [joinLines, List.flatMap_cons, List.append_assoc, List.singleton_append,
      splitLines_line h.1]
    exact congrArg (line :: ·) (ih h.2)

end ContainerCheck.Log

namespace ContainerCheck.Check

open ContainerCheck.Cri ContainerCheck.Log ContainerCheck.Text

structure JudgesLines (payload : String) (stream : LogStream) : Prop where
  /-- It passes if it can be read, all its lines decode and one says the message. -/
  verdict : ∀ {σ : Type} (path : String) (w : World σ),
    (verifyLog path payload stream w).1 = .ok () ↔
      ∃ content, w.tree.read path = .ok content ∧ HoldMessage payload stream (splitLines content)
  /-- It does not matter in which order whole lines stand, nor how often. -/
  rearranged : ∀ {σ : Type} (path path' : String) (w w' : World σ)
    (lines lines' : List (List UInt8)), (∀ line ∈ lines, 10 ∉ line) →
    (∀ line, line ∈ lines' ↔ line ∈ lines) → w.tree.read path = .ok (joinLines lines) →
    w'.tree.read path' = .ok (joinLines lines') →
      ((verifyLog path' payload stream w').1 = .ok () ↔
        (verifyLog path payload stream w).1 = .ok ())
  /-- Behind whole lines others may be added that decode. -/
  extended : ∀ {σ : Type} (path path' : String) (w w' : World σ) (content more : List UInt8),
    IsWhole content → (∀ line ∈ splitLines more, Decodes (lineText line)) →
    w.tree.read path = .ok content → w'.tree.read path' = .ok (content ++ more) →
      (verifyLog path payload stream w).1 = .ok () →
        (verifyLog path' payload stream w').1 = .ok ()

theorem verifyLog_fst_eq_ok_iff {σ : Type} (path payload : String) (stream : LogStream)
    (w : World σ) : (verifyLog path payload stream w).1 = .ok () ↔
      ∃ content, w.tree.read path = .ok content ∧
        HoldMessage payload stream (splitLines content) := by
  rw [verifyLog, Session.bind_run_fst_eq_ok_iff]
  cases hread : w.tree.read path with
  | error fault =>
    have hfails : (Session.readLog path w).1 = .error (.io path fault) := by
      change recordsOf path (w.tree.read path) = _
      rw [hread]
      rfl
    simp [hfails]
  | ok content =>
    simp only [readLog_of_read hread, contentRecords_eq_ok_iff, Session.lift,
      requireMessage_eq_ok_iff, holdMessage_iff, readRecords]
    simp

/-- A log is judged by its lines. -/
theorem verifyLog_judgesLines (payload : String) (stream : LogStream) :
    JudgesLines payload stream := by
  refine ⟨fun path w => verifyLog_fst_eq_ok_iff path payload stream w, ?_, ?_⟩
  · intro σ path path' w w' lines lines' hsingle hsame hread hread'
    have hsingle' : ∀ line ∈ lines', 10 ∉ line := fun line hline =>
      hsingle line ((hsame line).mp hline)
    simp only [verifyLog_fst_eq_ok_iff, hread, hread', Except.ok.injEq, exists_eq_left',
      splitLines_joinLines hsingle, splitLines_joinLines hsingle']
    exact HoldMessage.congr hsame
  · intro σ path path' w w' content more hwhole hmore hread hread'
    simp only [verifyLog_fst_eq_ok_iff, hread, hread', Except.ok.injEq, exists_eq_left',
      splitLines_append hwhole]
    exact fun h => h.append hmore

def byeLine : List UInt8 := encode "2016-10-06T00:17:10Z stderr P bye".toList

def helloLine : List UInt8 := encode helloObject

def byeRecord : Record := ⟨⟨1475713030, 0⟩, .stderr, "bye\n"⟩

theorem contentRecords_byeHello :
    (contentRecords (joinLines [byeLine, helloLine])).toOption = some [byeRecord, helloRecord] ∧
      (decode (lineText byeLine)).toOption = some byeRecord ∧
      ∀ line ∈ [byeLine, helloLine], 10 ∉ line := by
  decide +kernel

/-- The message is found wherever its line stands, however often, and with lines behind it. -/
theorem verifyLog_judgesLines_hello :
    (verifyLog "a.log" "hello\n" .stdout (worldWithLog (joinLines [byeLine, helloLine]))).1 =
        .ok () ∧
      (verifyLog "a.log" "hello\n" .stdout
        (worldWithLog (joinLines [helloLine, byeLine, helloLine]))).1 = .ok () ∧
      (verifyLog "a.log" "hello\n" .stdout
        (worldWithLog (joinLines [byeLine, helloLine] ++ joinLines [byeLine]))).1 = .ok () := by
  have hsame (a b line : List UInt8) : line ∈ [b, a, b] ↔ line ∈ [a, b] := by
    simp only [List.mem_cons, List.not_mem_nil, or_false]
    tauto
  obtain ⟨hrecords, hbye, hsingle⟩ := contentRecords_byeHello
  have hreads := readLog_of_read (read_worldWithLog (joinLines [byeLine, helloLine]))
  have hok : (verifyLog "a.log" "hello\n" .stdout
      (worldWithLog (joinLines [byeLine, helloLine]))).1 = .ok () :=
    (verifyLog_eq_ok_iff (hreads.trans (eq_ok_of_toOption hrecords))).mpr (by decide)
  have hjudges := verifyLog_judgesLines "hello\n" .stdout
  refine ⟨hok, ?_, ?_⟩
  · exact (hjudges.rearranged "a.log" "a.log" _ _ [byeLine, helloLine]
      [helloLine, byeLine, helloLine] hsingle (hsame _ _) (read_worldWithLog _)
      (read_worldWithLog _)).mpr hok
  · have hwhole : IsWhole (joinLines [byeLine, helloLine]) := by decide +kernel
    have hmore : ∀ line ∈ splitLines (joinLines [byeLine]), Decodes (lineText line) := by
      rw [splitLines_joinLines (List.forall_mem_singleton.mpr (hsingle _ List.mem_cons_self))]
      exact List.forall_mem_singleton.mpr ⟨_, eq_ok_of_toOption hbye⟩
    exact hjudges.extended "a.log" "a.log" _ _ (joinLines [byeLine, helloLine])
      (joinLines [byeLine]) hwhole hmore (read_worldWithLog _) (read_worldWithLog _) hok

end ContainerCheck.Check
