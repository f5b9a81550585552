import ContainerCheck.Proofs.Encodings

namespace ContainerCheck

open ContainerCheck.Text ContainerCheck.Time

namespace Json

variable {α : Type}

theorem parse_eq_ok_iff {read : Reader α} {text : List Char} {value : α} :
    parse read text = .ok value ↔ ∃ rest, read text = .ok (value, rest) ∧ skipSpaces rest = [] := by
  unfold parse
  constructor
  · intro h
    split at h
    · cases h
    · next rest hread =>
      split at h
      · next hend =>
        cases h
        exact ⟨rest, hread, hend⟩
      · cases h
  · rintro ⟨rest, hread, hend⟩
    simp only [hread, hend]

/-- Where a text has more than white space, something else comes behind it. -/
theorem skipSpaces_next_of_not_isSpaces {text : List Char} (h : ¬ IsSpaces text)
    (rest : List Char) : ∃ c ∈ text, isSpace c = false ∧
      ∃ tail, skipSpaces (text ++ rest) = c :: tail := by
  induction text with
  | nil => exact absurd nofun h
  | cons c text ih =>
    cases hc : isSpace c with
    | false =>
      exact ⟨c, List.mem_cons_self, hc, text ++ rest, if_neg (by simp [hc])⟩
    | true =>
      have htext : ¬ IsSpaces text := fun hspaces => h (List.forall_mem_cons.mpr ⟨hc, hspaces⟩)
      obtain ⟨d, hd, hspace, tail, hskip⟩ := ih htext
      refine ⟨d, List.mem_cons_of_mem _ hd, hspace, tail, ?_⟩
      rw [List.cons_append, skipSpaces, if_pos hc, hskip]

namespace Shape

variable {shape : Shape α} {text rest : List Char} {value : α}

theorem read_behind_spaces (shape : Shape α) {spaces : List Char} (h : IsSpaces spaces)
    (text : List Char) : shape.read (spaces ++ text) = shape.read text := by
  simp only [read, skipSpaces_append h]

/-- A structure is an object or a list. -/
theorem bracket_of_read (h : shape.read text = .ok (value, rest)) :
    ∃ c tail, skipSpaces text = c :: tail ∧ (c = '\x7b' ∨ c = '[') := by
  simp only [read] at h
  split at h
  · cases h
  · next c tail hskip =>
    refine ⟨c, tail, hskip, ?_⟩
    by_cases hbrace : c = '\x7b'
    · exact .inl hbrace
    · rw [if_neg hbrace] at h
      by_cases hbracket : c = '['
      · exact .inr hbracket
      · rw [if_neg hbracket] at h
        cases h

end Shape

end Json

namespace Log

open ContainerCheck.Json

/-- Whether a line can only be a JSON list. -/
def IsList (line : List Char) : Prop := (skipSpaces line).head? = some '['

section

variable {line : List Char} {record : Record}

theorem decodeJson_eq_ok_iff :
    decodeJson line = .ok record ↔ parse jsonLineShape.read line = .ok record := by
  unfold decodeJson
  split
  · next hparse => rw [hparse, Except.ok.injEq, Except.ok.injEq]
  · next hparse =>
    rw [hparse]
    exact iff_of_false nofun nofun

theorem bracket_of_decodeJson (h : decodeJson line = .ok record) :
    ∃ c tail, skipSpaces line = c :: tail ∧ (c = '\x7b' ∨ c = '[') := by
  obtain ⟨rest, hread, -⟩ := parse_eq_ok_iff.mp (decodeJson_eq_ok_iff.mp h)
  exact Shape.bracket_of_read hread

theorem stamp_of_decodeTagged (h : decodeTagged line = .ok record) :
    ∃ timestamp rest, line = timestamp ++ ' ' :: rest ∧
      readStrict timestamp = .ok record.timestamp := by
  simp only [decodeTagged] at h
  split at h
  · cases h
  · next fields hfields =>
    split at h
    · cases h
    · next instant hread =>
      cases h
      simp only [cutFields, Option.bind_eq_bind, Option.bind_eq_some_iff, Prod.exists] at hfields
      obtain ⟨timestamp, rest, hcut, stream, rest', -, tag, content, -, hmade⟩ := hfields
      cases hmade
      exact ⟨_, _, (cutSpace_eq_some_iff.mp hcut).1, hread⟩

/-- White space of JSON does not tell what a line is. -/
theorem encodingOf_skipSpaces (line : List Char) :
    encodingOf (skipSpaces line) = encodingOf line := by
  induction line with
  | nil => rfl
  | cons c rest ih =>
    unfold skipSpaces
    split
    · next hc =>
      rw [ih, encodingOf, encodingOf, dropBlanks_cons_of_blank (isBlank_of_isSpace hc)]
    · rfl

theorem encodingOf_cons {c : Char} (hc : isBlank c = false) (rest : List Char) :
    encodingOf (c :: rest) = if c = '\x7b' then .json else .tagged := by
  rw [encodingOf, dropBlanks_cons_of_not_blank hc]

/-- A line that decodes as a structure goes to the other decoder only if it is a list. -/
theorem encodingOf_of_decodeJson (h : decodeJson line = .ok record) :
    encodingOf line = .json ↔ ¬ IsList line := by
  obtain ⟨c, tail, hskip, hc⟩ := bracket_of_decodeJson h
  rw [← encodingOf_skipSpaces, IsList, hskip]
  rcases hc with rfl | rfl
  · exact iff_of_true (encodingOf_cons (by decide) tail) (by simp)
  · rw [encodingOf_cons (by decide)]
    exact iff_of_false (by decide) (by simp)

theorem encodingOf_of_decodeTagged (h : decodeTagged line = .ok record) :
    encodingOf line = .tagged := by
  obtain ⟨timestamp, rest, rfl, hread⟩ := stamp_of_decodeTagged h
  exact encodingOf_stamp hread _

/-- No line is of both kinds. -/
theorem not_decodeJson_of_decodeTagged (h : decodeTagged line = .ok record) (other : Record) :
    decodeJson line ≠ .ok other := by
  intro hjson
  obtain ⟨c, tail, hskip, hc⟩ := bracket_of_decodeJson hjson
  obtain ⟨timestamp, rest, rfl, hread⟩ := stamp_of_decodeTagged h
  obtain ⟨d, more, rfl, hdigit⟩ := (stamp_of_readStrict hread).1
  have hspace : isSpace d = false := by
    cases hd : isSpace d with
    | false => rfl
    | true =>
      have hblank := isBlank_of_isSpace hd
      rw [not_isBlank_of_isDigit hdigit] at hblank
      cases hblank
  rw [List.cons_append, skipSpaces, if_neg (by simp [hspace])] at hskip
  cases hskip
  rcases hc with rfl | rfl
  · cases hdigit
  · cases hdigit

end

/-- A line is decoded exactly as the one of the two decoders does that accepts it, unless it is a
list: that is taken for a tagged line. -/
theorem decode_dispatches (line : List Char) :
    (∀ record, decode line = .ok record ↔
      decodeTagged line = .ok record ∨ decodeJson line = .ok record ∧ ¬ IsList line) ∧
    ∀ tagged json, ¬ (decodeTagged line = .ok tagged ∧ decodeJson line = .ok json) := by
  refine ⟨fun record => ?_, fun tagged json h => not_decodeJson_of_decodeTagged h.1 json h.2⟩
  constructor
  · intro h
    unfold decode at h
    split at h
    · next hkind => exact .inr ⟨h, (encodingOf_of_decodeJson h).mp hkind⟩
    · exact .inl h
  · rintro (h | ⟨h, hlist⟩)
    · rw [decode, encodingOf_of_decodeTagged h]
      exact h
    · rw [decode, (encodingOf_of_decodeJson h).mpr hlist]
      exact h

def bareFields : List Char := "[\"hello\\n\",\"stdout\",\"2016-10-06T00:17:09Z\"]".toList

def helloObject : List Char :=
  "\x7b\"log\":\"hello\\n\",\"stream\":\"stdout\",\"time\":\"2016-10-06T00:17:09Z\"\x7d".toList

theorem decode_hello :
    (decodeJson bareFields).toOption = some ⟨⟨1475713029, 0⟩, .stdout, "hello\n"⟩ ∧
      (decode bareFields).toOption = none ∧ helloObject.head? = some '\x7b' ∧
      (decode helloObject).toOption = some ⟨⟨1475713029, 0⟩, .stdout, "hello\n"⟩ ∧
      (decode ('\xa0' :: helloObject)).toOption = none := by
  decide +kernel

/-- A list is a record to the decoder of JSON lines, which it is not given to. -/
theorem decode_bareFields :
    decodeJson bareFields = .ok ⟨⟨1475713029, 0⟩, .stdout, "hello\n"⟩ ∧
      ∀ record, decode bareFields ≠ .ok record := by
  obtain ⟨hrecord, hfails, -⟩ := decode_hello
  refine ⟨eq_ok_of_toOption hrecord, ?_⟩
  intro record hrecord
  rw [hrecord] at hfails
  cases hfails

/-- Blanks in front of an object do not matter if they are white space of JSON, and only then. -/
theorem decode_indented {line : List Char} (hline : line.head? = some '\x7b') {blanks : List Char}
    (hblanks : ∀ c ∈ blanks, isBlank c = true) (record : Record) :
    decode (blanks ++ line) = .ok record ↔ decode line = .ok record ∧ IsSpaces blanks := by
  obtain ⟨rest, rfl⟩ : ∃ rest, line = '\x7b' :: rest := by
    cases line with
    | nil => cases hline
    | cons c rest => exact ⟨rest, by cases hline; rfl⟩
  have hkind : encodingOf (blanks ++ '\x7b' :: rest) = .json ∧
      encodingOf ('\x7b' :: rest) = .json := by
    rw [encodingOf, dropBlanks_append_of_blanks hblanks]
    exact ⟨rfl, rfl⟩
  simp only [decode, hkind.1, hkind.2, decodeJson_eq_ok_iff, parse_eq_ok_iff]
  by_cases hspaces : IsSpaces blanks
  · rw [Shape.read_behind_spaces _ hspaces, and_iff_left hspaces]
  · refine iff_of_false ?_ fun h => hspaces h.2
    rintro ⟨after, hread, -⟩
    -- The blank that JSON does not know stands where the bracket should.
    obtain ⟨c, tail, hskip, hc⟩ := Shape.bracket_of_read hread
    obtain ⟨d, hd, hspace, more, hnext⟩ := skipSpaces_next_of_not_isSpaces hspaces ('\x7b' :: rest)
    rw [hskip] at hnext
    cases hnext
    have hblank := hblanks c hd
    rcases hc with rfl | rfl
    · cases hblank
    · cases hblank

theorem decode_indented_tab :
    helloObject.head? = some '\x7b' ∧ (∀ c ∈ ['\t', ' ', '\r'], isBlank c = true) ∧
      decode (['\t', ' ', '\r'] ++ helloObject) =
        .ok ⟨⟨1475713029, 0⟩, .stdout, "hello\n"⟩ := by
  obtain ⟨-, -, hhead, hobject, -⟩ := decode_hello
  have hblanks : ∀ c ∈ ['\t', ' ', '\r'], isBlank c = true := by simp [isBlank]
  exact ⟨hhead, hblanks,
    (decode_indented hhead hblanks _).mpr ⟨eq_ok_of_toOption hobject, by decide⟩⟩

/-- An object behind a space that does not break a line is no record, though the same object without
it is one. -/
theorem decode_behindNoBreakSpace :
    isBlank '\xa0' = true ∧ helloObject.head? = some '\x7b' ∧
      decode helloObject = .ok ⟨⟨1475713029, 0⟩, .stdout, "hello\n"⟩ ∧
      ∀ record, decode ('\xa0' :: helloObject) ≠ .ok record := by
  obtain ⟨-, -, hhead, hobject, hfails⟩ := decode_hello
  refine ⟨by decide, hhead, eq_ok_of_toOption hobject, ?_⟩
  intro record hrecord
  rw [hrecord] at hfails
  cases hfails

end Log

end ContainerCheck
