import ContainerCheck.Proofs.Timestamp
import ContainerCheck.Proofs.Utf8
import ContainerCheck.Session

namespace ContainerCheck.Log

open ContainerCheck.Text ContainerCheck.Time

/-- Whether a text may stand between the spaces of a tagged line. -/
def isField (text : List Char) : Bool := ' ' ∉ text && '\n' ∉ text

def isContent (bytes : List UInt8) : Bool := 10 ∉ bytes && bytes.getLast? != some 13

structure TaggedEntry where
  timestamp : List Char
  instant : Instant
  stream : String
  tag : String
  content : List UInt8
  timestamp_read : readStrict timestamp = .ok instant
  timestamp_whole : ' ' ∉ timestamp
  stream_field : isField stream.toList = true
  tag_field : isField tag.toList = true
  content_line : isContent content = true

/-- What may end a line: a line feed, or a carriage return and a line feed. -/
inductive LineEnd
  | feed
  | returnFeed
deriving DecidableEq

def LineEnd.bytes : LineEnd → List UInt8
  | feed => [10]
  | returnFeed => [13, 10]

namespace TaggedEntry

def head (entry : TaggedEntry) : List Char :=
  entry.timestamp ++ ' ' :: entry.stream.toList ++ ' ' :: entry.tag.toList ++ [' ']

def line (entry : TaggedEntry) : List UInt8 := encode entry.head ++ entry.content

def record (entry : TaggedEntry) : Record :=
  ⟨entry.instant, .ofName entry.stream, String.ofList (decodeLossy entry.content ++ ['\n'])⟩

end TaggedEntry

def taggedFile (entries : List (TaggedEntry × LineEnd)) (last : Option TaggedEntry) : List UInt8 :=
  (entries.flatMap fun e => e.1.line ++ e.2.bytes) ++ last.elim [] TaggedEntry.line

theorem not_isBlank_of_isDigit {c : Char} (h : c.isDigit = true) : isBlank c = false := by
  simp only [Char.isDigit, ge_iff_le, UInt32.le_iff_toNat_le, Bool.and_eq_true,
    decide_eq_true_eq] at h
  have hl : 48 ≤ c.toNat := h.1
  have hu : c.toNat ≤ 57 := h.2
  simp only [isBlank, Bool.or_eq_false_iff, Bool.and_eq_false_iff, decide_eq_false_iff_not,
    beq_eq_false_iff_ne]
  omega

section

variable {timestamp stream tag : List Char} {instant : Instant}

theorem cutFields_eq (htimestamp : ' ' ∉ timestamp) (hstream : ' ' ∉ stream) (htag : ' ' ∉ tag)
    (content : List Char) :
    cutFields (timestamp ++ ' ' :: (stream ++ ' ' :: (tag ++ ' ' :: content))) =
      some ⟨timestamp, stream, tag, content⟩ := by
  rw [cutFields, cutSpace_eq_some_iff.mpr ⟨rfl, htimestamp⟩]
  simp only [Option.bind_eq_bind, Option.bind_some]
  rw [cutSpace_eq_some_iff.mpr ⟨rfl, hstream⟩]
  simp only [Option.bind_some]
  rw [cutSpace_eq_some_iff.mpr ⟨rfl, htag⟩]
  rfl

/-- A line that begins with a timestamp is not taken for a JSON object. -/
theorem encodingOf_stamp (h : readStrict timestamp = .ok instant) (rest : List Char) :
    encodingOf (timestamp ++ rest) = .tagged := by
  obtain ⟨c, tail, rfl, hdigit⟩ := (stamp_of_readStrict h).1
  have hbrace : c ≠ '\x7b' := by
    rintro rfl
    revert hdigit
    decide
  rw [List.cons_append, encodingOf,
    dropBlanks_cons_of_not_blank (not_isBlank_of_isDigit hdigit)]
  exact if_neg hbrace

/-- What a tagged line says. -/
theorem decode_taggedLine (hread : readStrict timestamp = .ok instant)
    (htimestamp : ' ' ∉ timestamp) (hstream : ' ' ∉ stream) (htag : ' ' ∉ tag)
    (content : List Char) :
    decode (timestamp ++ ' ' :: (stream ++ ' ' :: (tag ++ ' ' :: content))) =
      .ok ⟨instant, .ofName (String.ofList stream), String.ofList (content ++ ['\n'])⟩ := by
  simp only [decode, encodingOf_stamp hread, decodeTagged,
    cutFields_eq htimestamp hstream htag, hread]

end

/-- A last line without its line feed. -/
theorem splitLines_last {line : List UInt8} (h : 10 ∉ line) (hne : line ≠ []) :
    splitLines line = [line] := by
  induction line with
  | nil => exact absurd rfl hne
  | cons b line ih =>
    rw [List.mem_cons, not_or] at h
    have hb : b ≠ 10 := fun hb => h.1 hb.symm
    rw [splitLines, if_neg hb]
    by_cases hnil : line = []
    · rw [hnil]
      rfl
    · rw [ih h.2 hnil]

namespace TaggedEntry

variable (entry : TaggedEntry)

theorem newline_not_mem_line : 10 ∉ entry.line := by
  have hstamp : '\n' ∉ entry.timestamp := by
    intro h
    have hchar := (stamp_of_readStrict entry.timestamp_read).2 '\n' h
    revert hchar
    decide
  have hstream := entry.stream_field
  have htag := entry.tag_field
  have hcontent := entry.content_line
  simp only [isField, isContent, Bool.and_eq_true, decide_eq_true_eq] at hstream htag hcontent
  simp only [line, List.mem_append, newline_mem_encode_iff, head, List.mem_cons, not_or]
  exact ⟨⟨⟨⟨hstamp, by decide, hstream.2⟩, by decide, htag.2⟩, by decide, List.not_mem_nil⟩,
    hcontent.1⟩

theorem line_ne_nil : entry.line ≠ [] := by
  intro h
  have hspace : (32 : UInt8) ∈ entry.line := by
    simp [line, head, encode_append, show encode [' '] = [32] by decide]
  rw [h] at hspace
  cases hspace

theorem getLast?_line : entry.line.getLast? ≠ some 13 := by
  have hcontent := entry.content_line
  simp only [isContent, Bool.and_eq_true, bne_iff_ne] at hcontent
  cases h : entry.content.getLast? with
  | none =>
    -- The space behind the tag is the last byte then.
    have hspace : encode [' '] = [32] := by decide
    rw [line, List.getLast?_eq_none_iff.mp h, List.append_nil, head, encode_append, hspace,
      List.getLast?_concat]
    decide
  | some b =>
    rw [line, List.getLast?_append, h, Option.some_or, ← h]
    exact hcontent.2

/-- The carriage return of a line's end goes with it, and nothing else does. -/
theorem trimReturn_line : trimReturn entry.line = entry.line := by
  rw [trimReturn, if_neg entry.getLast?_line]

theorem trimReturn_line_return : trimReturn (entry.line ++ [13]) = entry.line := by
  simp [trimReturn]

/-- What the text of an entry decodes to, whatever its content. -/
theorem decode_head (content : List Char) :
    decode (entry.head ++ content) =
      .ok ⟨entry.instant, .ofName entry.stream, String.ofList (content ++ ['\n'])⟩ := by
  have hstream := entry.stream_field
  have htag := entry.tag_field
  simp only [isField, Bool.and_eq_true, decide_eq_true_eq] at hstream htag
  have hline := decode_taggedLine entry.timestamp_read entry.timestamp_whole hstream.1 htag.1
    content
  rw [String.ofList_toList] at hline
  rw [← hline]
  simp [head]

theorem decodeLine_of_trim {line : List UInt8} (h : trimReturn line = entry.line) :
    decodeLine line = .ok entry.record := by
  have hread : decodeLossy (trimReturn line) = entry.head ++ decodeLossy entry.content := by
    rw [h, TaggedEntry.line, decodeLossy_encode_append]
  simp only [decodeLine, hread, decode_head]
  rfl

end TaggedEntry

theorem LineEnd.bytes_eq (lineEnd : LineEnd) :
    lineEnd.bytes = lineEnd.bytes.dropLast ++ [10] := by
  cases lineEnd with
  | feed => rfl
  | returnFeed => rfl

theorem newline_not_mem_lineEnd (lineEnd : LineEnd) : 10 ∉ lineEnd.bytes.dropLast := by
  cases lineEnd <;> decide

theorem readRecords_line {line rest : List UInt8} {record : Record} {records : List Record}
    (h : 10 ∉ line) (hline : decodeLine line = .ok record)
    (hrest : readRecords rest = .ok records) :
    readRecords (line ++ 10 :: rest) = .ok (record :: records) := by
  rw [readRecords] at hrest
  rw [readRecords, splitLines_line h]
  simp only [decodeLines, hline, hrest]

theorem readRecords_last {line : List UInt8} {record : Record} (h : 10 ∉ line) (hne : line ≠ [])
    (hline : decodeLine line = .ok record) : readRecords line = .ok [record] := by
  rw [readRecords, splitLines_last h hne]
  simp only [decodeLines, hline]

/-- A file of entries is read as their records. -/
theorem readRecords_taggedFile (entries : List (TaggedEntry × LineEnd))
    (last : Option TaggedEntry) :
    readRecords (taggedFile entries last) =
      .ok ((entries.map Prod.fst ++ last.toList).map TaggedEntry.record) := by
  induction entries with
  | nil =>
    cases last with
    | none => rfl
    | some entry =>
      exact readRecords_last entry.newline_not_mem_line entry.line_ne_nil
        (entry.decodeLine_of_trim entry.trimReturn_line)
  | cons e entries ih =>
    have hfirst : taggedFile (e :: entries) last =
        (e.1.line ++ e.2.bytes.dropLast) ++ 10 :: taggedFile entries last := by
      rw [taggedFile, List.flatMap_cons, e.2.bytes_eq]
      simp [taggedFile]
    have hwhole : 10 ∉ e.1.line ++ e.2.bytes.dropLast := by
      rw [List.mem_append, not_or]
      exact ⟨e.1.newline_not_mem_line, newline_not_mem_lineEnd e.2⟩
    -- Lines are cut at their line feeds, which leaves a carriage return to be trimmed.
    have htrim : trimReturn (e.1.line ++ e.2.bytes.dropLast) = e.1.line := by
      cases e.2 with
      | feed => simpa [LineEnd.bytes] using e.1.trimReturn_line
      | returnFeed => exact e.1.trimReturn_line_return
    rw [hfirst]
    exact readRecords_line hwhole (e.1.decodeLine_of_trim htrim) ih

/-- Reading a tagged log gives one record for each entry, in their order. -/
theorem readLog_taggedFile {σ : Type} (entries : List (TaggedEntry × LineEnd))
    (last : Option TaggedEntry) (path : String) (w : World σ)
    (h : w.tree.read path = .ok (taggedFile entries last)) :
    (Session.readLog path w).1 =
      .ok ((entries.map Prod.fst ++ last.toList).map TaggedEntry.record) := by
  change recordsOf path (w.tree.read path) = _
  simp only [recordsOf, h, hostResult, contentRecords, readRecords_taggedFile]

/-- Output with a byte that is no text, and with a carriage return that ends no line. -/
def noisyEntry : TaggedEntry where
  timestamp := "2016-12-31T23:59:60.5+01:00".toList
  instant := ⟨1483225199, 1500000000⟩
  stream := "stdout"
  tag := "P"
  content := [123, 255, 13, 32, 254]
  timestamp_read := by decide +kernel
  timestamp_whole := by decide +kernel
  stream_field := by decide +kernel
  tag_field := by decide +kernel
  content_line := by decide +kernel

def noisyTree : Host.Tree :=
  ⟨[(["a.log"], .file (taggedFile [(noisyEntry, .returnFeed)] (some noisyEntry)))], []⟩

theorem readLog_taggedFile_noisy :
    (World.start noisyTree ()).tree.read "a.log" =
        .ok (taggedFile [(noisyEntry, .returnFeed)] (some noisyEntry)) ∧
      (Session.readLog "a.log" (World.start noisyTree ())).1 =
        .ok [noisyEntry.record, noisyEntry.record] ∧
      noisyEntry.record.payload = "\x7b\uFFFD\r \uFFFD\n" := by
  have h : (World.start noisyTree ()).tree.read "a.log" =
      .ok (taggedFile [(noisyEntry, .returnFeed)] (some noisyEntry)) := by
    decide +kernel
  exact ⟨h, readLog_taggedFile _ _ _ _ h, by decide +kernel⟩

end ContainerCheck.Log
