import ContainerCheck.Proofs.GrowingLogs
import ContainerCheck.Proofs.PrintedRecords

namespace ContainerCheck

open ContainerCheck.Text ContainerCheck.Time ContainerCheck.Log

namespace Text

theorem hexadecimal_of_lt {n : Nat} (h : n < 16) : hexadecimal n = [n.digitChar] :=
  Nat.toDigits_of_lt_base h

theorem hexadecimal_of_ge {n : Nat} (h : 16 ≤ n) :
    hexadecimal n = hexadecimal (n / 16) ++ [(n % 16).digitChar] := by
  have hlast : n % 16 < 16 := Nat.mod_lt n (by decide)
  have happend := Nat.toDigits_append_toDigits (b := 16) (n := n / 16) (d := n % 16)
    (by decide) (by omega) hlast
  rw [show 16 * (n / 16) + n % 16 = n by omega, Nat.toDigits_of_lt_base hlast] at happend
  exact happend.symm

theorem exists_of_mem_hexadecimal {c : Char} {n : Nat} (h : c ∈ hexadecimal n) :
    ∃ digit < 16, c = digit.digitChar := by
  induction n using Nat.strongRecOn with
  | ind n ih =>
    by_cases hn : n < 16
    · rw [hexadecimal_of_lt hn, List.mem_singleton] at h
      exact ⟨n, hn, h⟩
    · rw [hexadecimal_of_ge (by omega), List.mem_append, List.mem_singleton] at h
      rcases h with h | h
      · exact ih (n / 16) (by omega) h
      · exact ⟨n % 16, Nat.mod_lt n (by decide), h⟩

theorem newline_not_mem_hexadecimal (n : Nat) : '\n' ∉ hexadecimal n := by
  have hdigits : ∀ n < 16, n.digitChar ≠ '\n' := by decide
  intro h
  obtain ⟨digit, hdigit, heq⟩ := exists_of_mem_hexadecimal h
  exact hdigits digit hdigit heq.symm

theorem newline_not_mem_codePoint (c : Char) : '\n' ∉ codePoint c := by
  have hdigits := newline_not_mem_hexadecimal c.toNat
  simp [codePoint, hdigits]

/-- Whatever else a way of showing text spells out, it spells out a newline. -/
theorem newline_not_mem_char (e : Escapes) (c : Char) : '\n' ∉ e.char c := by
  by_cases h : c = '\n'
  · subst h
    simp [Escapes.char]
  · have hcode := newline_not_mem_codePoint c
    have hself : '\n' ∉ [c] := by simpa using Ne.symm h
    unfold Escapes.char
    split_ifs <;> first | exact hcode | exact hself | decide

theorem newline_not_mem_spelledChars (text : List Char) : '\n' ∉ spelledChars text := by
  cases text with
  | nil => simp [spelledChars]
  | cons c rest => simp [spelledChars, newline_not_mem_char]

theorem newline_not_mem_instant (i : Instant) : '\n' ∉ i.text .nine :=
  not_mem_instant (by decide) (by decide) i

end Text

namespace Log

/-- The newlines of a row are those of the stream's name. -/
theorem Record.count_newline_row (record : Record) :
    record.row.toList.count '\n' = record.stream.name.toList.count '\n' := by
  have hstamp := List.count_eq_zero.mpr (newline_not_mem_instant record.timestamp)
  have hpayload := List.count_eq_zero.mpr (newline_not_mem_spelledChars record.payload.toList)
  simp [Record.row, Record.padRight, List.count_replicate, hstamp, hpayload]

theorem Record.newline_mem_row_iff (record : Record) :
    '\n' ∈ record.row.toList ↔ '\n' ∈ record.stream.name.toList := by
  rw [← List.count_pos_iff, record.count_newline_row, List.count_pos_iff]

/-- The lines of a file hold no line feed. -/
theorem newline_not_mem_of_mem_splitLines {line content : List UInt8}
    (h : line ∈ splitLines content) : 10 ∉ line := by
  induction content generalizing line with
  | nil => cases h
  | cons byte rest ih =>
    by_cases hbyte : byte = 10
    · subst hbyte
      rw [splitLines_newline] at h
      rcases List.mem_cons.mp h with rfl | h
      · simp
      · exact ih h
    · rw [splitLines_cons_of_ne hbyte] at h
      rcases List.mem_cons.mp h with rfl | h
      · have hhead : 10 ∉ (splitLines rest).head?.getD [] := by
          cases hlines : splitLines rest with
          | nil => simp
          | cons first later =>
            rw [List.head?_cons, Option.getD_some]
            exact ih (hlines ▸ List.mem_cons_self)
        simp [Ne.symm hbyte, hhead]
      · exact ih (List.mem_of_mem_tail h)

theorem mem_of_mem_stream {line : List Char} {fields : TaggedFields} {c : Char}
    (h : cutFields line = some fields) (hc : c ∈ fields.stream) : c ∈ line := by
  simp only [cutFields, Option.bind_eq_bind, Option.bind_eq_some_iff, Prod.exists] at h
  obtain ⟨stamp, behindStamp, hstamp, stream, behindStream, hstream, tag, rest, -, hfields⟩ := h
  cases hfields
  rw [(cutSpace_eq_some_iff.mp hstamp).1, (cutSpace_eq_some_iff.mp hstream).1]
  simp [hc]

/-- A tagged line names its stream without a newline. -/
theorem newline_not_mem_name {line content : List UInt8} {record : Record}
    (hline : line ∈ splitLines content) (hdecode : decodeLine line = .ok record)
    (htagged : encodingOf (decodeLossy (trimReturn line)) = .tagged) :
    '\n' ∉ record.stream.name.toList := by
  intro h
  simp only [decodeLine, decode, htagged] at hdecode
  split at hdecode
  · next hrecord =>
    cases hdecode
    simp only [decodeTagged] at hrecord
    split at hrecord
    · cases hrecord
    · next fields hfields =>
      split at hrecord
      · cases hrecord
      · cases hrecord
        rw [LogStream.name_ofName, String.toList_ofList] at h
        have hbyte := newline_mem_of_decodeLossy (mem_of_mem_stream hfields h)
        have hmem : 10 ∈ line := by
          rw [trimReturn] at hbyte
          split at hbyte
          · exact (List.dropLast_sublist line).mem hbyte
          · exact hbyte
        exact newline_not_mem_of_mem_splitLines hline hmem
  · cases hdecode

end Log

namespace CommandLine

/-- Whether a printed text consists of these lines, none of which is broken. -/
def ConsistsOf (text : String) (lines : List String) : Prop :=
  text = printed lines ∧ ∀ line ∈ lines, '\n' ∉ line.toList

/-- A printed text has a newline behind each of its lines, and those inside of them. -/
theorem count_newline_printed (lines : List String) :
    (printed lines).toList.count '\n' =
      lines.length + (lines.map fun line => line.toList.count '\n').sum := by
  induction lines with
  | nil => rfl
  | cons line lines ih =>
    have hcons : printed (line :: lines) = line ++ "\n" ++ printed lines := by
      simp [printed, String.join_cons]
    have hfeed : "\n".toList.count '\n' = 1 := by decide
    rw [hcons, String.toList_append, String.toList_append, List.count_append, List.count_append,
      hfeed, ih, List.length_cons, List.map_cons, List.sum_cons]
    omega

theorem ConsistsOf.count_newline {text : String} {lines : List String} (h : ConsistsOf text lines) :
    text.toList.count '\n' = lines.length := by
  have hzero : (lines.map fun line => line.toList.count '\n').sum = 0 := by
    rw [List.sum_eq_zero_iff_forall_eq_nat]
    intro count hcount
    obtain ⟨line, hline, rfl⟩ := List.mem_map.mp hcount
    exact List.count_eq_zero.mpr (h.2 line hline)
  rw [h.1, count_newline_printed, hzero, Nat.add_zero]

theorem newline_not_mem_tableHead : '\n' ∉ tableHead.toList := by
  rw [tableHead, String.toList_ofList]
  decide

structure Tabulates (content : List UInt8) (records : List Record) (text : String) : Prop where
  /-- The head, and a row for each record. -/
  rows : text = printed (tableHead :: records.map Record.row)
  /-- A row is broken just where the name of its stream is. -/
  broken : ∀ record ∈ records, ('\n' ∈ record.row.toList ↔ '\n' ∈ record.stream.name.toList)
  /-- There is a newline for each line, and what the names of streams add. -/
  newlines : text.toList.count '\n' =
    records.length + 1 + (records.map fun record => record.stream.name.toList.count '\n').sum
  /-- The text is the head and one line for each record just when no such name has a newline. -/
  oneEach : (∃ lines, lines.length = records.length ∧ ConsistsOf text (tableHead :: lines)) ↔
    ∀ record ∈ records, '\n' ∉ record.stream.name.toList
  /-- The name in a tagged line has none, whatever else is in the line. -/
  tagged : List.Forall₂ (fun line record =>
    encodingOf (decodeLossy (trimReturn line)) = .tagged → '\n' ∉ record.stream.name.toList)
    (splitLines content) records

variable {σ : Type}

theorem table_run {config : Config} {file : String} {w : World σ} {content : List UInt8}
    {records : List Record} (hread : w.tree.read file = .ok content)
    (hrecords : readRecords content = .ok records) (hne : records ≠ []) :
    ((Command.parse file false).run config w).1 =
      .ok (printed (tableHead :: records.map Record.row)) := by
  have hrecordsOf : recordsOf file (w.tree.read file) = .ok records := by
    simp [recordsOf, hostResult, contentRecords, hread, hrecords]
  simp [Command.run, Session.bind_run, Session.readLog, Session.inspect, hrecordsOf, recordLines,
    hne, Session.pure_run]

theorem count_newline_table (records : List Record) :
    (printed (tableHead :: records.map Record.row)).toList.count '\n' =
      records.length + 1 +
        (records.map fun record => record.stream.name.toList.count '\n').sum := by
  have hhead := List.count_eq_zero.mpr newline_not_mem_tableHead
  simp [count_newline_printed, hhead, List.map_map, Function.comp_def, Record.count_newline_row]

/-- The table of a file has one line for each record unless a stream's name has a newline, which
only the name in a JSON line can have. -/
theorem parse_tabulates (config : Config) (file : String) (w : World σ) {content : List UInt8}
    {records : List Record} (hread : w.tree.read file = .ok content)
    (hrecords : readRecords content = .ok records) (hne : records ≠ []) :
    ∃ text, ((Command.parse file false).run config w).1 = .ok text ∧
      Tabulates content records text := by
  refine ⟨_, table_run hread hrecords hne, rfl, fun record _ => record.newline_mem_row_iff,
    count_newline_table records, ?_, ?_⟩
  · constructor
    · intro hlines record hrecord
      obtain ⟨lines, hlength, hconsists⟩ := hlines
      have hcount := hconsists.count_newline
      rw [count_newline_table, List.length_cons, hlength] at hcount
      have hsum : (records.map fun record => record.stream.name.toList.count '\n').sum = 0 := by
        omega
      exact List.count_eq_zero.mp (List.sum_eq_zero_iff_forall_eq_nat.mp hsum _
        (List.mem_map_of_mem hrecord))
    · intro hnames
      refine ⟨records.map Record.row, List.length_map _, rfl, ?_⟩
      rw [List.forall_mem_cons]
      refine ⟨newline_not_mem_tableHead, ?_⟩
      intro line hline
      obtain ⟨record, hrecord, rfl⟩ := List.mem_map.mp hline
      rw [record.newline_mem_row_iff]
      exact hnames record hrecord
  · obtain ⟨hlength, hlines⟩ := List.forall₂_iff_zip.mp (forall₂_of_decodeLines hrecords)
    refine List.forall₂_iff_zip.mpr ⟨hlength, fun hpair htagged => ?_⟩
    exact newline_not_mem_name (List.of_mem_zip hpair).1 (hlines hpair) htagged

def twoLineStreamLog : List UInt8 := encode
  ("\x7b\"log\":\"x\\n\",\"stream\":\"a\\nb\",\"time\":\"2016-10-06T00:17:09Z\"\x7d\n").toList

def twoLineStreamRecord : Record := ⟨⟨1475713029, 0⟩, .ofName "a\nb", "x\n"⟩

theorem readRecords_twoLineStreamLog : readRecords twoLineStreamLog = .ok [twoLineStreamRecord] :=
  eq_ok_of_toOption (by decide +kernel)

theorem parse_tabulates_twoLineStream :
    (worldWithLog twoLineStreamLog).tree.read "a.log" = .ok twoLineStreamLog ∧
      readRecords twoLineStreamLog = .ok [twoLineStreamRecord] ∧
      [twoLineStreamRecord] ≠ [] ∧
      ∃ text, ((Command.parse "a.log" false).run {} (worldWithLog twoLineStreamLog)).1 =
        .ok text ∧ Tabulates twoLineStreamLog [twoLineStreamRecord] text :=
  ⟨read_worldWithLog _, readRecords_twoLineStreamLog, by simp,
    parse_tabulates {} "a.log" (worldWithLog twoLineStreamLog) (read_worldWithLog _)
      readRecords_twoLineStreamLog (by simp)⟩

/-- One record whose row is two lines, so that its table cannot be the head and a single line. -/
theorem parse_brokenRow :
    (worldWithLog twoLineStreamLog).tree.read "a.log" = .ok twoLineStreamLog ∧
      readRecords twoLineStreamLog = .ok [twoLineStreamRecord] ∧
      '\n' ∈ twoLineStreamRecord.row.toList ∧
      ∃ text, ((Command.parse "a.log" false).run {} (worldWithLog twoLineStreamLog)).1 =
        .ok text ∧
        ¬ ∃ lines, lines.length = 1 ∧ ConsistsOf text (tableHead :: lines) := by
  have hbroken : '\n' ∈ twoLineStreamRecord.row.toList := by
    rw [Record.newline_mem_row_iff]
    decide
  refine ⟨read_worldWithLog _, readRecords_twoLineStreamLog, hbroken, _,
    table_run (read_worldWithLog _) readRecords_twoLineStreamLog (by simp), ?_⟩
  intro hlines
  obtain ⟨lines, hlength, hconsists⟩ := hlines
  have htwo : (tableHead :: lines).length = 2 := by rw [List.length_cons, hlength]
  have hcount := hconsists.count_newline
  rw [count_newline_table, htwo] at hcount
  exact absurd hcount (by decide)

end CommandLine

end ContainerCheck
