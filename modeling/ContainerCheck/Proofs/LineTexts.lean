import ContainerCheck.Proofs.LineKinds
import ContainerCheck.Proofs.StampForm

namespace ContainerCheck.Log

open ContainerCheck.Text ContainerCheck.Time ContainerCheck.Json

/-- The values of a JSON line as they stand there. -/
structure LineTexts where
  log : String
  stream : String
  time : String
deriving Repr, DecidableEq

def lineTextsShape : Shape LineTexts where
  name := "JsonLogLine"
  blank := ⟨"", "stdout", ""⟩
  defaulted := false
  fields := [
    .of "log" .string fun texts value => { texts with log := value },
    .of "stream" .string fun texts value => { texts with stream := value },
    .of "time" (.named "an RFC 3339 formatted date and time string")
      fun texts value => { texts with time := value }]

/-- A record says what the texts say that have been given. -/
structure Says (given : List String) (texts : LineTexts) (record : Record) : Prop where
  payload : record.payload = texts.log
  stream : record.stream = .ofName texts.stream
  time : "time" ∈ given → readLenient texts.time.toList = .ok record.timestamp

inductive Outcome (name : String) :
    Except Failure ((Record → Record) × List Char) →
      Except Failure ((LineTexts → LineTexts) × List Char) → Prop
  | neither (failure failure' : Failure) : Outcome name (.error failure) (.error failure')
  | both {set : Record → Record} {fill : LineTexts → LineTexts} (rest : List Char)
      (htold : ∀ {given texts record}, Says given texts record →
        Says (name :: given) (fill texts) (set record))
      (hkeeps : name ≠ "time" → ∀ texts, (fill texts).time = texts.time) :
      Outcome name (.ok (set, rest)) (.ok (fill, rest))
  | badTime (failure : Failure) {fill : LineTexts → LineTexts} (rest : List Char)
      (hname : name = "time")
      (hbad : ∀ texts instant, readLenient (fill texts).time.toList ≠ .ok instant) :
      Outcome name (.error failure) (.ok (fill, rest))

structure Paired (field : Json.Field Record) (text : Json.Field LineTexts) : Prop where
  name : text.name = field.name
  optional : text.optional = field.optional
  outcome : ∀ source, Outcome field.name (field.read source) (text.read source)

theorem paired_fields : List.Forall₂ Paired jsonLineShape.fields lineTextsShape.fields := by
  refine .cons ⟨rfl, rfl, fun source => ?_⟩ <| .cons ⟨rfl, rfl, fun source => ?_⟩ <|
    .cons ⟨rfl, rfl, fun source => ?_⟩ .nil
  · simp only [Field.of]
    cases Reader.string source with
    | error failure => exact .neither _ _
    | ok value => exact .both _ (fun h => ⟨rfl, h.stream, by simpa using h.time⟩) fun _ _ => rfl
  · simp only [Field.of]
    cases Reader.string source with
    | error failure => exact .neither _ _
    | ok value => exact .both _ (fun h => ⟨h.payload, rfl, by simpa using h.time⟩) fun _ _ => rfl
  · simp only [Field.of, Reader.timestamp]
    cases Reader.named "an RFC 3339 formatted date and time string" source with
    | error failure => exact .neither _ _
    | ok value =>
      simp only
      split
      · next hread =>
        split at hread
        · cases hread
          exact .badTime _ _ rfl (by simp [*])
        · cases hread
      · next hread =>
        split at hread
        · cases hread
        · next hinstant =>
          cases hread
          exact .both _ (fun h => ⟨h.payload, h.stream, fun _ => hinstant⟩) fun h => absurd rfl h

theorem find?_paired (key : String) :
    jsonLineShape.find? key = none ∧ lineTextsShape.find? key = none ∨
      ∃ field text, jsonLineShape.find? key = some field ∧ lineTextsShape.find? key = some text ∧
        Paired field text := by
  unfold Shape.find?
  have h := paired_fields
  generalize jsonLineShape.fields = fields at h ⊢
  generalize lineTextsShape.fields = texts at h ⊢
  induction h with
  | nil => exact .inl ⟨rfl, rfl⟩
  | @cons field text fields texts hpaired _ ih =>
    simp only [List.find?_cons, hpaired.name]
    cases field.name == key with
    | true => exact .inr ⟨field, text, rfl, rfl, hpaired⟩
    | false => exact ih

theorem missing?_lineTexts (given : List String) :
    lineTextsShape.missing? given = jsonLineShape.missing? given := by
  have h := paired_fields
  simp only [Shape.missing?, show lineTextsShape.defaulted = false from rfl,
    show jsonLineShape.defaulted = false from rfl, Bool.false_eq_true, if_false]
  generalize jsonLineShape.fields = fields at h ⊢
  generalize lineTextsShape.fields = texts at h ⊢
  induction h with
  | nil => rfl
  | @cons field text fields texts hpaired _ ih =>
    simp only [List.find?_cons, hpaired.name, hpaired.optional]
    split
    · simp only [Option.map_some, hpaired.name]
    · exact ih

theorem time_of_missing? {given : List String} (h : jsonLineShape.missing? given = none) :
    "time" ∈ given := by
  simp [Shape.missing?, jsonLineShape, Field.of] at h
  tauto

structure IsRecord (texts : LineTexts) (record : Record) : Prop where
  payload : record.payload = texts.log
  stream : record.stream = .ofName texts.stream
  time : readLenient texts.time.toList = .ok record.timestamp

section

variable {source rest : List Char} {texts texts' : LineTexts} {record record' : Record}

theorem isRecord_iff_eq (h : IsRecord texts record) :
    IsRecord texts record' ↔ record' = record := by
  constructor
  · intro h'
    have htime := h.time.symm.trans h'.time
    cases record
    cases record'
    simp only [Except.ok.injEq] at htime
    rw [Record.mk.injEq]
    exact ⟨htime.symm, h'.stream.trans h.stream.symm, h'.payload.trans h.payload.symm⟩
  · rintro rfl
    exact h

/-- A time that is given is kept. -/
theorem time_of_readObject {fuel : Nat} {first : Bool} {given : List String}
    (htime : "time" ∈ given)
    (h : lineTextsShape.readObject fuel first given texts source = .ok (texts', rest)) :
    texts'.time = texts.time := by
  induction fuel generalizing first given texts source with
  | zero => cases h
  | succ fuel ih =>
    rw [Shape.readObject] at h
    split at h
    · cases h
    · split at h
      · cases h
      · cases h
        rfl
    · next text _ =>
      simp only [bind_eq_ok_iff, Prod.exists] at h
      obtain ⟨key, after, -, h⟩ := h
      rcases find?_paired (String.ofList key) with ⟨-, hfind⟩ | ⟨field, text, -, hfind, hpaired⟩
      · simp only [hfind, bind_eq_ok_iff] at h
        obtain ⟨_, -, _, -, h⟩ := h
        exact ih htime h
      · simp only [hfind] at h
        split at h
        · cases h
        · next hgiven =>
          simp only [bind_eq_ok_iff, Prod.exists] at h
          obtain ⟨value, -, fill, more, hread, h⟩ := h
          rw [ih (List.mem_cons_of_mem _ htime) h]
          have hname : field.name ≠ "time" := by
            rintro hname
            rw [hpaired.name, hname] at hgiven
            exact hgiven (List.contains_iff_mem.mpr htime)
          have houtcome := hpaired.outcome value
          rw [hread] at houtcome
          generalize field.read value = result at houtcome
          cases houtcome with
          | both _ _ hkeeps => exact hkeeps hname texts
          | badTime _ _ hname' => exact absurd hname' hname

/-- A line goes on to be a record, if the reading behind a field does so that is told of the field
and that keeps a time. -/
theorem Outcome.eq_ok_iff {name : String} {given : List String}
    {field : Except Failure ((Record → Record) × List Char)}
    {text : Except Failure ((LineTexts → LineTexts) × List Char)}
    (houtcome : Outcome name field text)
    (h : Says given texts record) (next : Record → Reader Record)
    (next' : LineTexts → Reader LineTexts)
    (hnext : ∀ {texts record source}, Says (name :: given) texts record →
      (next record source = .ok (record', rest) ↔
        ∃ texts', next' texts source = .ok (texts', rest) ∧ IsRecord texts' record'))
    (hkeeps : name = "time" → ∀ {texts texts' source}, next' texts source = .ok (texts', rest) →
      texts'.time = texts.time) :
    (field >>= fun (set, source) => next (set record) source) = .ok (record', rest) ↔
      ∃ texts', (text >>= fun (fill, source) => next' (fill texts) source) = .ok (texts', rest) ∧
        IsRecord texts' record' := by
  cases houtcome with
  | neither => exact iff_of_false nofun (by rintro ⟨_, ⟨⟩, _⟩)
  | both source htold => exact hnext (htold h)
  | badTime failure source hname hbad =>
    -- The time has been told, so that no later field can mend it.
    refine iff_of_false nofun ?_
    rintro ⟨texts', hread, hrecord⟩
    have htime := hrecord.time
    rw [hkeeps hname hread] at htime
    exact hbad texts _ htime

/-- What is told with its time is a record. -/
theorem Says.closed_eq_ok_iff {given : List String} (h : Says given texts record)
    (htime : "time" ∈ given) {after : List Char} :
    (Except.ok (record, after) : Except Failure (Record × List Char)) = .ok (record', rest) ↔
      ∃ texts', (Except.ok (texts, after) : Except Failure (LineTexts × List Char)) =
        .ok (texts', rest) ∧ IsRecord texts' record' := by
  have hrecord : IsRecord texts record := ⟨h.payload, h.stream, h.time htime⟩
  constructor
  · rintro ⟨⟩
    exact ⟨texts, rfl, hrecord⟩
  · rintro ⟨_, ⟨⟩, hrecord'⟩
    rw [(isRecord_iff_eq hrecord).mp hrecord']

theorem readObject_eq_ok_iff {fuel : Nat} {first : Bool} {given : List String}
    (h : Says given texts record) :
    jsonLineShape.readObject fuel first given record source = .ok (record', rest) ↔
      ∃ texts', lineTextsShape.readObject fuel first given texts source = .ok (texts', rest) ∧
        IsRecord texts' record' := by
  induction fuel generalizing first given texts record source with
  | zero => exact iff_of_false nofun (by rintro ⟨_, ⟨⟩, _⟩)
  | succ fuel ih =>
    simp only [Shape.readObject, missing?_lineTexts]
    cases nextMember first source with
    | error failure => simp
    | ok next =>
      cases next with
      | closed after =>
        cases hmissing : jsonLineShape.missing? given with
        | some name => simp
        | none => exact h.closed_eq_ok_iff (time_of_missing? hmissing)
      | part text =>
        simp only
        cases readString text with
        | error failure => simp [bind, Except.bind]
        | ok entry =>
          obtain ⟨key, after⟩ := entry
          rcases find?_paired (String.ofList key) with
            ⟨hfind, hfind'⟩ | ⟨field, text, hfind, hfind', hpaired⟩
          -- What has no field is skipped alike.
          · simp only [bind, Except.bind, hfind, hfind']
            cases readColon after with
            | error failure => simp
            | ok value =>
              simp only
              cases skipValue value with
              | error failure => simp
              | ok more => exact ih h
          · simp only [bind, Except.bind, hfind, hfind', hpaired.name]
            cases given.contains field.name with
            | true => simp
            | false =>
              cases readColon after with
              | error failure => simp
              | ok value =>
                exact (hpaired.outcome value).eq_ok_iff h
                  (jsonLineShape.readObject fuel false (field.name :: given))
                  (lineTextsShape.readObject fuel false (field.name :: given)) ih
                  fun hname => time_of_readObject (hname ▸ List.mem_cons_self)

/-- The end of a list does not look at the value. -/
theorem readListEnd_eq_ok_iff {α : Type} {value value' : α} :
    Shape.readListEnd value source = .ok (value', rest) ↔
      value' = value ∧ Shape.readListEnd () source = .ok ((), rest) := by
  unfold Shape.readListEnd
  split
  · exact iff_of_false nofun nofun
  · split
    · simp [eq_comm]
    · split
      · split
        · exact iff_of_false nofun nofun
        · exact iff_of_false nofun nofun
      · exact iff_of_false nofun nofun

theorem readList_part {α : Type} {shape : Shape α} {field : Json.Field α}
    {fields : List (Json.Field α)} {count : Nat} {draft : α} {value : List Char}
    (h : nextItem (count == 0) source = .ok (.part value)) :
    shape.readList (field :: fields) count draft source =
      (field.read value >>= fun (set, rest) =>
        shape.readList fields (count + 1) (set draft) rest) := by
  simp only [Shape.readList, h]
  cases field.read value with
  | error failure => rfl
  | ok entry => rfl

theorem time_of_readList {fields : List (Json.Field Record)} {fields' : List (Json.Field LineTexts)}
    (hfields : List.Forall₂ Paired fields fields') {count : Nat}
    (htime : "time" ∉ fields.map Json.Field.name)
    (h : lineTextsShape.readList fields' count texts source = .ok (texts', rest)) :
    texts'.time = texts.time := by
  induction hfields generalizing count texts source with
  | nil => rw [(readListEnd_eq_ok_iff.mp h).1]
  | @cons field field' fields fields' hpaired _ ih =>
    simp only [List.map_cons, List.mem_cons, not_or] at htime
    rw [Shape.readList] at h
    split at h
    · cases h
    · cases h
    · next value _ =>
      have houtcome := hpaired.outcome value
      generalize field.read value = result at houtcome
      split at h
      · cases h
      · next hread =>
        rw [ih htime.2 h]
        rw [hread] at houtcome
        cases houtcome with
        | both _ _ hkeeps => exact hkeeps (Ne.symm htime.1) texts
        | badTime _ _ hname => exact absurd hname.symm htime.1

theorem readList_eq_ok_iff {fields : List (Json.Field Record)}
    {fields' : List (Json.Field LineTexts)} (hfields : List.Forall₂ Paired fields fields')
    (hnodup : (fields.map Json.Field.name).Nodup) {count : Nat} {given : List String}
    (h : Says given texts record)
    (hwhole : "time" ∈ given ∨ "time" ∈ fields.map Json.Field.name) :
    jsonLineShape.readList fields count record source = .ok (record', rest) ↔
      ∃ texts', lineTextsShape.readList fields' count texts source = .ok (texts', rest) ∧
        IsRecord texts' record' := by
  induction hfields generalizing count given texts record source with
  | nil =>
    have hrecord : IsRecord texts record :=
      ⟨h.payload, h.stream, h.time (hwhole.resolve_right List.not_mem_nil)⟩
    simp only [Shape.readList]
    rw [readListEnd_eq_ok_iff]
    constructor
    · rintro ⟨rfl, hend⟩
      exact ⟨texts, readListEnd_eq_ok_iff.mpr ⟨rfl, hend⟩, hrecord⟩
    · rintro ⟨last, hlast, hrecord'⟩
      obtain ⟨rfl, hend⟩ := readListEnd_eq_ok_iff.mp hlast
      exact ⟨(isRecord_iff_eq hrecord).mp hrecord', hend⟩
  | @cons field field' fields fields' hpaired hfields ih =>
    simp only [List.map_cons, List.nodup_cons] at hnodup
    cases hnext : nextItem (count == 0) source with
    | error failure => simp [Shape.readList, hnext]
    | ok next =>
      cases next with
      | closed after =>
        simp only [Shape.readList, hnext]
        exact iff_of_false nofun (by rintro ⟨_, ⟨⟩, _⟩)
      | part value =>
        have hwhole' : "time" ∈ field.name :: given ∨ "time" ∈ fields.map Json.Field.name := by
          rcases hwhole with hgiven | hname
          · exact .inl (List.mem_cons_of_mem _ hgiven)
          · rcases List.mem_cons.mp hname with hname | hlater
            · exact .inl (hname ▸ List.mem_cons_self)
            · exact .inr hlater
        simp only [readList_part hnext]
        exact (hpaired.outcome value).eq_ok_iff h (jsonLineShape.readList fields (count + 1))
          (lineTextsShape.readList fields' (count + 1)) (fun htold => ih hnodup.2 htold hwhole')
          fun hname => time_of_readList hfields (hname ▸ hnodup.1)

/-- A line is a record exactly if its texts are and the lenient reader takes its time. -/
theorem decodeJson_eq_ok_iff_texts {line : List Char} : decodeJson line = .ok record ↔
    ∃ texts, parse lineTextsShape.read line = .ok texts ∧ IsRecord texts record := by
  have hblank : Says [] lineTextsShape.blank jsonLineShape.blank := ⟨rfl, rfl, nofun⟩
  have hread : ∀ rest, jsonLineShape.read line = .ok (record, rest) ↔
      ∃ texts, lineTextsShape.read line = .ok (texts, rest) ∧ IsRecord texts record := by
    intro rest
    simp only [Shape.read]
    split
    · exact iff_of_false (by rintro ⟨⟩) (by rintro ⟨_, ⟨⟩, _⟩)
    · split
      · exact readObject_eq_ok_iff hblank
      · split
        · exact readList_eq_ok_iff paired_fields (by decide) hblank (.inr (by decide))
        · exact iff_of_false (by rintro ⟨⟩) (by rintro ⟨_, ⟨⟩, _⟩)
  simp only [decodeJson_eq_ok_iff, parse_eq_ok_iff, hread]
  constructor
  · rintro ⟨rest, ⟨texts, htexts, hrecord⟩, hend⟩
    exact ⟨texts, ⟨rest, htexts, hend⟩, hrecord⟩
  · rintro ⟨texts, ⟨rest, htexts, hend⟩, hrecord⟩
    exact ⟨rest, ⟨texts, htexts, hrecord⟩, hend⟩

end

/-- The record of a JSON line has the time that the strict reader takes, or one that only lacks the
form of a strict timestamp and that the lenient reader takes. -/
theorem decodeJson_timed (line : List Char) (record : Record) : decodeJson line = .ok record ↔
    ∃ texts, parse lineTextsShape.read line = .ok texts ∧
      record.payload = texts.log ∧ record.stream = .ofName texts.stream ∧
      (readStrict texts.time.toList = .ok record.timestamp ∨
        ¬ StampForm texts.time.toList ∧ readLenient texts.time.toList = .ok record.timestamp) := by
  rw [decodeJson_eq_ok_iff_texts]
  refine exists_congr fun texts => and_congr_right fun _ => ?_
  rw [readStrict_eq_ok_iff]
  constructor
  · intro h
    refine ⟨h.payload, h.stream, ?_⟩
    by_cases hform : StampForm texts.time.toList
    · exact .inl ⟨h.time, hform⟩
    · exact .inr ⟨hform, h.time⟩
  · rintro ⟨hpayload, hstream, ⟨htime, -⟩ | ⟨-, htime⟩⟩
    · exact ⟨hpayload, hstream, htime⟩
    · exact ⟨hpayload, hstream, htime⟩

def narrowObject : List Char :=
  "\x7b\"log\":\"hello\\n\",\"stream\":\"stdout\",\"time\":\"2016-10-6T0:17:9Z\"\x7d".toList

/-- It is a record, though the strict reader does not take its time. -/
theorem decodeJson_narrowTime :
    parse lineTextsShape.read narrowObject = .ok ⟨"hello\n", "stdout", "2016-10-6T0:17:9Z"⟩ ∧
      decodeJson narrowObject = .ok ⟨⟨1475713029, 0⟩, .stdout, "hello\n"⟩ ∧
      ∀ instant, readStrict "2016-10-6T0:17:9Z".toList ≠ .ok instant := by
  have hfails : (readStrict "2016-10-6T0:17:9Z".toList).toOption = none := by decide +kernel
  refine ⟨eq_ok_of_toOption (by decide +kernel), eq_ok_of_toOption (by decide +kernel), ?_⟩
  intro instant hinstant
  rw [hinstant] at hfails
  cases hfails

end ContainerCheck.Log
