import ContainerCheck.Proofs.TaggedFile

namespace ContainerCheck.Log

open ContainerCheck.Time

theorem cutSpace_eq_none_iff {line : List Char} : cutSpace line = none ↔ ' ' ∉ line := by
  induction line with
  | nil => simp [cutSpace]
  | cons c line ih =>
    by_cases hc : c = ' '
    · simp [cutSpace, hc]
    · simp [cutSpace, hc, ih, Ne.symm hc]

theorem count_of_cutSpace {line field rest : List Char} (h : cutSpace line = some (field, rest)) :
    line.count ' ' = rest.count ' ' + 1 := by
  obtain ⟨rfl, hfield⟩ := cutSpace_eq_some_iff.mp h
  rw [List.count_append, List.count_eq_zero_of_not_mem hfield, List.count_cons_self, Nat.zero_add]

namespace TaggedFields

def text (fields : TaggedFields) : List Char :=
  fields.timestamp ++ ' ' :: (fields.stream ++ ' ' :: (fields.tag ++ ' ' :: fields.content))

structure IsCut (fields : TaggedFields) : Prop where
  timestamp : ' ' ∉ fields.timestamp
  stream : ' ' ∉ fields.stream
  tag : ' ' ∉ fields.tag

/-- A record says what the fields say, and keeps the whole content. -/
structure Tells (fields : TaggedFields) (record : Record) : Prop where
  timestamp : readStrict fields.timestamp = .ok record.timestamp
  stream : record.stream.name.toList = fields.stream
  payload : record.payload.toList = fields.content ++ ['\n']

end TaggedFields

section

variable {line : List Char} {fields : TaggedFields} {record : Record}

theorem cutFields_eq_some_iff :
    cutFields line = some fields ↔ line = fields.text ∧ fields.IsCut := by
  constructor
  · intro h
    simp only [cutFields, Option.bind_eq_bind, Option.bind_eq_some_iff, Prod.exists] at h
    obtain ⟨timestamp, rest, hfirst, stream, rest', hsecond, tag, content, hthird, hmade⟩ := h
    cases hmade
    obtain ⟨rfl, htimestamp⟩ := cutSpace_eq_some_iff.mp hfirst
    obtain ⟨rfl, hstream⟩ := cutSpace_eq_some_iff.mp hsecond
    obtain ⟨rfl, htag⟩ := cutSpace_eq_some_iff.mp hthird
    exact ⟨rfl, htimestamp, hstream, htag⟩
  · rintro ⟨rfl, hcut⟩
    exact cutFields_eq hcut.timestamp hcut.stream hcut.tag fields.content

/-- A line can be cut if it has spaces enough. -/
theorem cutFields_eq_none_iff : cutFields line = none ↔ line.count ' ' < 3 := by
  have hend {rest : List Char} (h : cutSpace rest = none) : rest.count ' ' = 0 :=
    List.count_eq_zero_of_not_mem (cutSpace_eq_none_iff.mp h)
  simp only [cutFields, Option.bind_eq_bind]
  -- Each of the three cuts takes one space away.
  cases hfirst : cutSpace line with
  | none => simp [hend hfirst]
  | some first =>
    rw [count_of_cutSpace hfirst, Option.bind_some]
    cases hsecond : cutSpace first.2 with
    | none => simp [hend hsecond]
    | some second =>
      rw [count_of_cutSpace hsecond, Option.bind_some]
      cases hthird : cutSpace second.2 with
      | none => simp [hend hthird]
      | some third => simp [count_of_cutSpace hthird]

/-- The fields are in front of the spaces. -/
theorem TaggedFields.IsCut.takeWhile_text (h : fields.IsCut) :
    fields.text.takeWhile (· ≠ ' ') = fields.timestamp := by
  have hfield : ∀ c ∈ fields.timestamp, (decide (c ≠ ' ')) = true := by
    intro c hc
    simpa using fun hspace : c = ' ' => h.timestamp (hspace ▸ hc)
  rw [text, List.takeWhile_append_of_pos hfield]
  simp

theorem decodeTagged_text (h : fields.IsCut) :
    decodeTagged fields.text =
      match readStrict fields.timestamp with
      | .error fault => .error (.timestamp (String.ofList fields.timestamp) fault)
      | .ok timestamp =>
        .ok ⟨timestamp, .ofName (String.ofList fields.stream),
          String.ofList (fields.content ++ ['\n'])⟩ := by
  have hcut : cutFields fields.text = some fields := cutFields_eq_some_iff.mpr ⟨rfl, h⟩
  cases hread : readStrict fields.timestamp with
  | ok timestamp => simp only [decodeTagged, hcut, hread]
  | error fault => simp only [decodeTagged, hcut, hread]

theorem decodeTagged_text_eq_ok_iff (h : fields.IsCut) :
    decodeTagged fields.text = .ok record ↔ fields.Tells record := by
  rw [decodeTagged_text h]
  constructor
  · intro hrecord
    split at hrecord
    · cases hrecord
    · next hread =>
      cases hrecord
      exact ⟨hread, by simp, by simp⟩
  · intro htells
    rw [htells.timestamp, ← htells.stream, ← htells.payload]
    simp

/-- A name is recognized only as it is. -/
theorem LogStream.eq_iff_name {stream : LogStream} (other : LogStream) :
    stream = other ↔ stream.name = other.name :=
  ⟨congrArg LogStream.name, LogStream.name_injective⟩

end

structure TakesTagged (line : List Char) : Prop where
  /-- It has three spaces and a timestamp in front of the first. -/
  accepted : (∃ record, decodeText decodeTagged line = .ok record) ↔
    3 ≤ line.count ' ' ∧ ∃ instant, readStrict (line.takeWhile (· ≠ ' ')) = .ok instant
  /-- It is cut in one way, and its record tells the fields. -/
  fields : ∀ record, decodeText decodeTagged line = .ok record →
    ∃ fields : TaggedFields, line = fields.text ∧ fields.IsCut ∧ fields.Tells record ∧
      (record.stream = .stdout ↔ fields.stream = "stdout".toList) ∧
      (record.stream = .stderr ↔ fields.stream = "stderr".toList) ∧
      ∀ other : TaggedFields, line = other.text → other.IsCut → other = fields
  /-- A failure quotes the line. -/
  quoted : ∀ malformed, decodeText decodeTagged line = .error malformed →
    malformed.line = String.ofList line
  /-- Without three spaces there is no tag to speak of. -/
  short : line.count ' ' < 3 → decodeTagged line = .error .fewFields
  /-- Another tag changes nothing. -/
  tag : ∀ fields : TaggedFields, line = fields.text → fields.IsCut → ∀ tag, ' ' ∉ tag →
    decodeTagged { fields with tag := tag }.text = decodeTagged line

/-- The decoder of tagged lines takes exactly the lines of its form, and loses nothing of them but
the tag. -/
theorem takesTagged (line : List Char) : TakesTagged line where
  accepted := by
    simp only [decodeText_eq_ok_iff]
    by_cases hshort : line.count ' ' < 3
    · have hnone := cutFields_eq_none_iff.mpr hshort
      simp [decodeTagged, hnone, Nat.not_le_of_lt hshort]
    · obtain ⟨fields, hfields⟩ := Option.ne_none_iff_exists'.mp
        (mt cutFields_eq_none_iff.mp hshort)
      obtain ⟨rfl, hcut⟩ := cutFields_eq_some_iff.mp hfields
      rw [hcut.takeWhile_text, decodeTagged_text hcut]
      simp only [Nat.le_of_not_lt hshort, true_and]
      cases readStrict fields.timestamp <;> simp
  fields record h := by
    rw [decodeText_eq_ok_iff] at h
    obtain ⟨fields, hfields⟩ : ∃ fields, cutFields line = some fields :=
      Option.ne_none_iff_exists'.mp fun hnone => by simp [decodeTagged, hnone] at h
    obtain ⟨rfl, hcut⟩ := cutFields_eq_some_iff.mp hfields
    have htells := (decodeTagged_text_eq_ok_iff hcut).mp h
    have hstream (stream : LogStream) :
        record.stream = stream ↔ fields.stream = stream.name.toList := by
      rw [LogStream.eq_iff_name, ← htells.stream, String.toList_inj]
    refine ⟨fields, rfl, hcut, htells, hstream .stdout, hstream .stderr, ?_⟩
    intro other htext hother
    -- Both are what the line is cut into.
    have hsame := cutFields_eq_some_iff.mpr ⟨htext, hother⟩
    exact Option.some.inj (hsame.symm.trans hfields)
  quoted malformed h := line_of_decodeText h
  short h := by
    simp only [decodeTagged, cutFields_eq_none_iff.mpr h]
  tag := by
    rintro fields rfl hcut tag htag
    have hcut' : TaggedFields.IsCut { fields with tag := tag } :=
      ⟨hcut.timestamp, hcut.stream, htag⟩
    rw [decodeTagged_text hcut, decodeTagged_text hcut']

end ContainerCheck.Log
