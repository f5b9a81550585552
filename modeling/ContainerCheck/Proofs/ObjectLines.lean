import ContainerCheck.Proofs.LineTexts
import ContainerCheck.Proofs.ReadStrings

namespace ContainerCheck.Log

open ContainerCheck.Text ContainerCheck.Time ContainerCheck.Json

inductive LineKey
  | log
  | stream
  | time
deriving DecidableEq

def LineKey.name : LineKey → String
  | log => "log"
  | stream => "stream"
  | time => "time"

theorem LineKey.name_injective : Function.Injective LineKey.name := by
  intro key other h
  cases key <;> cases other <;> first | rfl | exact absurd h (by decide)

namespace LineTexts

def get (texts : LineTexts) : LineKey → String
  | .log => texts.log
  | .stream => texts.stream
  | .time => texts.time

def fill (texts : LineTexts) (key : LineKey) (text : String) : LineTexts :=
  match key with
  | .log => { texts with log := text }
  | .stream => { texts with stream := text }
  | .time => { texts with time := text }

variable {texts texts' : LineTexts}

theorem ext_get (h : ∀ key, texts.get key = texts'.get key) : texts = texts' := by
  cases texts
  cases texts'
  exact congr (congr (congrArg mk (h .log)) (h .stream)) (h .time)

theorem get_fill (texts : LineTexts) (key : LineKey) (text : String) (other : LineKey) :
    (texts.fill key text).get other = if other = key then text else texts.get other := by
  cases key <;> cases other <;> rfl

end LineTexts

/-- A key is one of the three, or no field is known for it. -/
theorem find?_lineTexts (name : String) :
    (∃ key : LineKey, name = key.name ∧ ∃ expected, lineTextsShape.find? name =
      some (.of name (.named expected) fun texts text => texts.fill key text)) ∨
    (∀ key : LineKey, name ≠ key.name) ∧ lineTextsShape.find? name = none := by
  by_cases hlog : name = "log"
  · subst hlog
    exact .inl ⟨.log, rfl, _, rfl⟩
  · by_cases hstream : name = "stream"
    · subst hstream
      exact .inl ⟨.stream, rfl, _, rfl⟩
    · by_cases htime : name = "time"
      · subst htime
        exact .inl ⟨.time, rfl, _, rfl⟩
      · refine .inr ⟨?_, ?_⟩
        · rintro (_ | _ | _)
          · exact hlog
          · exact hstream
          · exact htime
        · simp [Shape.find?, lineTextsShape, Field.of, Ne.symm hlog, Ne.symm hstream,
            Ne.symm htime]

theorem missing?_lineTexts_eq_none_iff {given : List String} :
    lineTextsShape.missing? given = none ↔ ∀ key : LineKey, key.name ∈ given := by
  simp only [Shape.missing?, lineTextsShape, Field.of, Bool.false_eq_true, if_false]
  constructor
  · intro h
    simp at h
    rintro (_ | _ | _)
    · exact h.1
    · exact h.2.1
    · exact h.2.2
  · intro h
    simpa using ⟨h .log, h .stream, h .time⟩

/-- A member of an object, its value as it stands there. -/
abbrev RawMember := String × List Char

structure Heeded where
  given : List String
  texts : LineTexts

inductive Heeds (member : RawMember) (before : Heeded) : Heeded → Prop
  | field (key : LineKey) {text : String} (hkey : member.1 = key.name)
    (hfresh : key.name ∉ before.given) (htext : StringText text member.2) :
    Heeds member before ⟨key.name :: before.given, before.texts.fill key text⟩
  | other (hkey : ∀ key : LineKey, member.1 ≠ key.name) : Heeds member before before

section

variable {member : RawMember} {text lead : List Char} {first : Bool}

/-- A member of a field is heeded if the field is new and the value is a text. -/
theorem heeds_iff_of_name {before heeded : Heeded} {key : LineKey} (hkey : member.1 = key.name) :
    Heeds member before heeded ↔ member.1 ∉ before.given ∧ ∃ text, StringText text member.2 ∧
      heeded = ⟨member.1 :: before.given, before.texts.fill key text⟩ := by
  constructor
  · rintro (⟨other, hother, hfresh, htext⟩ | hother)
    · obtain rfl := LineKey.name_injective (hkey.symm.trans hother)
      rw [hkey]
      exact ⟨hfresh, _, htext, rfl⟩
    · exact absurd hkey (hother key)
  · rintro ⟨hfresh, text, htext, rfl⟩
    rw [hkey] at hfresh ⊢
    exact .field key hkey hfresh htext

/-- A member is heeded, or it is passed over. -/
theorem readObject_heeds (hmember : MemberText Eq member text) (hvalue : JsonText .value member.2)
    (hlead : Shape.Leads first lead) :
    ∃ after, IsSpaces after ∧ ∀ tail, Stops (after ++ tail) → ∀ fuel (before : Heeded) texts' rest,
      lineTextsShape.readObject (fuel + 1) first before.given before.texts
          (lead ++ (text ++ tail)) = .ok (texts', rest) ↔
        ∃ heeded, Heeds member before heeded ∧
          lineTextsShape.readObject fuel false heeded.given heeded.texts (after ++ tail) =
            .ok (texts', rest) := by
  obtain ⟨behind, spaces, _, after, hspaces, rfl, hafter, hread⟩ :=
    lineTextsShape.readObject_key hmember hlead
  refine ⟨after, hafter, fun tail hstops fuel before texts' rest => ?_⟩
  rw [hread]
  rcases find?_lineTexts member.1 with ⟨key, hkey, expected, hfind⟩ | ⟨hother, hfind⟩
  · simp only [hfind, Field.of, heeds_iff_of_name hkey, bind, Except.bind]
    by_cases hgiven : member.1 ∈ before.given
    · simp [hgiven]
    · have hcontains : before.given.contains member.1 = false := by simpa using hgiven
      simp only [hcontains, Bool.false_eq_true, if_false]
      cases hnamed : Reader.named expected (spaces ++ (member.2 ++ (after ++ tail))) with
      | error failure =>
        refine iff_of_false (fun h => by cases h) ?_
        rintro ⟨heeded, ⟨-, text, htext, -⟩, -⟩
        rw [(named_eq_ok_iff hvalue hspaces expected).mpr ⟨htext, rfl⟩] at hnamed
        cases hnamed
      | ok entry =>
        obtain ⟨text, rest'⟩ := entry
        obtain ⟨htext, rfl⟩ := (named_eq_ok_iff hvalue hspaces expected).mp hnamed
        constructor
        · exact fun h => ⟨_, ⟨hgiven, text, htext, rfl⟩, h⟩
        · rintro ⟨heeded, ⟨-, text, htext', rfl⟩, h⟩
          rw [stringText_unique htext' htext] at h
          exact h
  · simp only [hfind, skipValue_jsonText hvalue hspaces hstops, bind, Except.bind]
    constructor
    · exact fun h => ⟨before, .other hother, h⟩
    · rintro ⟨heeded, hheeds, h⟩
      cases hheeds with
      | field key hkey => exact absurd hkey (hother key)
      | other => exact h

end

def HeedsAll : List RawMember → Heeded → Heeded → Prop
  | [], before, heeded => heeded = before
  | member :: members, before, heeded =>
    ∃ next, Heeds member before next ∧ HeedsAll members next heeded

def valuesOf (members : List RawMember) (key : LineKey) : List (List Char) :=
  (members.filter fun member => member.1 = key.name).map Prod.snd

/-- Whether a key is left alone, if it has been given before, or given once, as a text. -/
def Gives (members : List RawMember) (before : Heeded) (texts : LineTexts) (key : LineKey) : Prop :=
  if key.name ∈ before.given then valuesOf members key = [] ∧ texts.get key = before.texts.get key
  else ∃ value, valuesOf members key = [value] ∧ StringText (texts.get key) value

section

variable {member : RawMember} {members : List RawMember} {before heeded : Heeded}
  {texts : LineTexts} {key : LineKey}

theorem valuesOf_cons (member : RawMember) (members : List RawMember) (key : LineKey) :
    valuesOf (member :: members) key =
      if member.1 = key.name then member.2 :: valuesOf members key else valuesOf members key := by
  by_cases h : member.1 = key.name <;> simp [valuesOf, h]

theorem gives_of_heeds (h : Heeds member before heeded) :
    Gives (member :: members) before texts key ↔ Gives members heeded texts key := by
  cases h with
  | other hother =>
    rw [Gives, valuesOf_cons, if_neg (hother key)]
    rfl
  | @field other text hother hfresh htext =>
    unfold Gives
    rw [valuesOf_cons, hother]
    by_cases hkey : key = other
    · subst hkey
      rw [if_pos rfl, if_neg hfresh, if_pos List.mem_cons_self, LineTexts.get_fill, if_pos rfl]
      simp only [List.cons.injEq]
      constructor
      · rintro ⟨_, ⟨rfl, hnone⟩, hvalue⟩
        exact ⟨hnone, stringText_unique hvalue htext⟩
      · rintro ⟨hnone, hsame⟩
        exact ⟨_, ⟨rfl, hnone⟩, hsame ▸ htext⟩
    · have hname : ¬ other.name = key.name := fun h => hkey (LineKey.name_injective h.symm)
      rw [if_neg hname, LineTexts.get_fill, if_neg hkey]
      simp only [List.mem_cons, Ne.symm hname, false_or]

/-- A member of a line in which all keys are given well can be heeded. -/
theorem exists_heeds_of_gives (h : ∀ key, Gives (member :: members) before texts key) :
    ∃ heeded, Heeds member before heeded := by
  by_cases hother : ∀ key : LineKey, member.1 ≠ key.name
  · exact ⟨_, .other hother⟩
  · simp only [not_forall, not_not] at hother
    obtain ⟨key, hkey⟩ := hother
    have hgives := h key
    rw [Gives, valuesOf_cons, if_pos hkey] at hgives
    split at hgives
    · exact absurd hgives.1 (List.cons_ne_nil _ _)
    · next hfresh =>
      obtain ⟨value, hvalue, htext⟩ := hgives
      rw [← (List.cons.inj hvalue).1] at htext
      exact ⟨_, .field key hkey hfresh htext⟩

theorem heedsAll_iff_gives : (∃ heeded, HeedsAll members before heeded ∧
    (∀ key : LineKey, key.name ∈ heeded.given) ∧ heeded.texts = texts) ↔
      ∀ key, Gives members before texts key := by
  -- What has been heeded before grows with each member.
  induction members generalizing before with
  | nil =>
    constructor
    · rintro ⟨_, rfl, hall, rfl⟩ key
      rw [Gives, if_pos (hall key)]
      exact ⟨rfl, rfl⟩
    · intro h
      have hgiven (key : LineKey) :
          key.name ∈ before.given ∧ texts.get key = before.texts.get key := by
        have hgives := h key
        unfold Gives at hgives
        split at hgives
        · next hmem => exact ⟨hmem, hgives.2⟩
        · obtain ⟨_, hvalue, -⟩ := hgives
          cases hvalue
      exact ⟨before, rfl, fun key => (hgiven key).1,
        LineTexts.ext_get fun key => (hgiven key).2.symm⟩
  | cons member members ih =>
    constructor
    · rintro ⟨heeded, ⟨next, hheeds, hmore⟩, hwhole⟩ key
      exact (gives_of_heeds hheeds).mpr (ih.mp ⟨heeded, hmore, hwhole⟩ key)
    · intro h
      obtain ⟨next, hheeds⟩ := exists_heeds_of_gives h
      obtain ⟨heeded, hmore, hwhole⟩ := ih.mpr fun key => (gives_of_heeds hheeds).mp (h key)
      exact ⟨heeded, ⟨next, hheeds, hmore⟩, hwhole⟩

end

/-- The ways to write an object with some members. Their keys are spelled in some way; their values
are JSON as it stands there. -/
inductive RawObject : List RawMember → List Char → Prop
  | empty {spaces : List Char} (h : IsSpaces spaces) : RawObject [] ('\x7b' :: (spaces ++ ['\x7d']))
  | full {members : List RawMember} {body : List Char} (h : MembersText Eq members body)
    (hvalues : ∀ member ∈ members, JsonText .value member.2) :
    RawObject members ('\x7b' :: (body ++ ['\x7d']))

section

variable {given : List String} {texts texts' : LineTexts} {rest rest' : List Char}

/-- The end of an object is reached with all keys given or it is a failure. -/
theorem readObject_closed_eq_ok_iff {spaces : List Char} (h : IsSpaces spaces) {fuel : Nat}
    {first : Bool} :
    lineTextsShape.readObject (fuel + 1) first given texts (spaces ++ '\x7d' :: rest) =
        .ok (texts', rest') ↔
      rest' = rest ∧ (∀ key : LineKey, key.name ∈ given) ∧ texts = texts' := by
  rw [← missing?_lineTexts_eq_none_iff]
  simp only [Shape.readObject, nextMember_closed h]
  cases lineTextsShape.missing? given with
  | some name => simp
  | none => simp [and_comm, eq_comm]

/-- The members of an object are heeded one after the other. -/
theorem readObject_members_eq_ok_iff {members : List RawMember} {body lead : List Char}
    {first : Bool} {fuel : Nat} (before : Heeded) (hbody : MembersText Eq members body)
    (hvalues : ∀ member ∈ members, JsonText .value member.2) (hlead : Shape.Leads first lead)
    (hfuel : members.length < fuel) :
    lineTextsShape.readObject fuel first before.given before.texts
        (lead ++ (body ++ '\x7d' :: rest)) = .ok (texts', rest') ↔
      rest' = rest ∧ ∃ heeded, HeedsAll members before heeded ∧
        (∀ key : LineKey, key.name ∈ heeded.given) ∧ heeded.texts = texts' := by
  induction hbody generalizing fuel first lead before with
  | @last member text h =>
    obtain ⟨fuel, rfl⟩ := Nat.exists_eq_add_of_lt hfuel
    obtain ⟨after, hafter, hstep⟩ := readObject_heeds h (hvalues member List.mem_cons_self) hlead
    have hstops : Stops (after ++ '\x7d' :: rest) := stops_of_isSpaces hafter (by decide)
    rw [List.length_singleton, Nat.add_comm 1 fuel, hstep _ hstops]
    simp only [readObject_closed_eq_ok_iff hafter, HeedsAll]
    constructor
    · rintro ⟨heeded, hheeds, hrest, hwhole⟩
      exact ⟨hrest, heeded, ⟨heeded, hheeds, rfl⟩, hwhole⟩
    · rintro ⟨hrest, _, ⟨heeded, hheeds, rfl⟩, hwhole⟩
      exact ⟨_, hheeds, hrest, hwhole⟩
  | @more member members text tail h htail ih =>
    obtain ⟨fuel, rfl⟩ := Nat.exists_eq_succ_of_ne_zero (Nat.ne_zero_of_lt hfuel)
    obtain ⟨after, hafter, hstep⟩ := readObject_heeds h (hvalues member List.mem_cons_self) hlead
    have hstops : Stops (after ++ ',' :: (tail ++ '\x7d' :: rest)) :=
      stops_of_isSpaces hafter (by decide)
    have hmore (heeded : Heeded) :
        lineTextsShape.readObject fuel false heeded.given heeded.texts
            (after ++ ',' :: (tail ++ '\x7d' :: rest)) = .ok (texts', rest') ↔
          rest' = rest ∧ ∃ last, HeedsAll members heeded last ∧
            (∀ key : LineKey, key.name ∈ last.given) ∧ last.texts = texts' := by
      rw [← ih heeded (fun m hm => hvalues m (List.mem_cons_of_mem _ hm)) (Shape.leads_comma hafter)
        (Nat.lt_of_succ_lt_succ hfuel), List.append_assoc]
      rfl
    rw [List.append_assoc, List.cons_append, hstep _ hstops]
    simp only [hmore, HeedsAll]
    constructor
    · rintro ⟨next, hheeds, hrest, heeded, hall, hwhole⟩
      exact ⟨hrest, heeded, ⟨next, hheeds, hall⟩, hwhole⟩
    · rintro ⟨hrest, heeded, ⟨next, hheeds, hall⟩, hwhole⟩
      exact ⟨next, hheeds, hrest, heeded, hall, hwhole⟩

/-- An object is read if each of the three keys is given once and is a text. -/
theorem read_rawObject_eq_ok_iff {members : List RawMember} {object : List Char}
    (h : RawObject members object) :
    lineTextsShape.read (object ++ rest) = .ok (texts', rest') ↔
      rest' = rest ∧ ∀ key, ∃ value, valuesOf members key = [value] ∧
        StringText (texts'.get key) value := by
  have hgives : (∃ heeded, HeedsAll members ⟨[], lineTextsShape.blank⟩ heeded ∧
      (∀ key : LineKey, key.name ∈ heeded.given) ∧ heeded.texts = texts') ↔
        ∀ key, ∃ value, valuesOf members key = [value] ∧ StringText (texts'.get key) value := by
    rw [heedsAll_iff_gives]
    rfl
  rw [← hgives]
  cases h with
  | empty hspaces =>
    rw [List.cons_append, List.append_assoc, Shape.read_brace, List.cons_append, List.nil_append,
      readObject_closed_eq_ok_iff hspaces]
    simp [HeedsAll]
  | @full _ body hbody hvalues =>
    have hlength := length_le_of_membersText hbody
    have hfuel : members.length < (body ++ '\x7d' :: rest).length + 1 := by
      rw [List.length_append]
      omega
    rw [List.cons_append, List.append_assoc, Shape.read_brace]
    exact readObject_members_eq_ok_iff ⟨[], _⟩ hbody hvalues Shape.leads_nil hfuel

theorem skipSpaces_eq_nil_iff {text : List Char} : skipSpaces text = [] ↔ IsSpaces text := by
  constructor
  · intro h
    by_contra hspaces
    obtain ⟨c, -, -, tail, hskip⟩ := skipSpaces_next_of_not_isSpaces hspaces []
    rw [List.append_nil, h] at hskip
    cases hskip
  · exact skipSpaces_of_isSpaces

end

/-- A record says what the three keys of a line say, each of which is given once and as a text. -/
structure MembersTell (members : List RawMember) (record : Record) : Prop where
  log : ∃ value, valuesOf members .log = [value] ∧ StringText record.payload value
  stream : ∃ value text, valuesOf members .stream = [value] ∧ StringText text value ∧
    record.stream = .ofName text
  time : ∃ value text, valuesOf members .time = [value] ∧ StringText text value ∧
    readLenient text.toList = .ok record.timestamp

theorem membersTell_iff {members : List RawMember} {record : Record} :
    (∃ texts : LineTexts, (∀ key, ∃ value, valuesOf members key = [value] ∧
      StringText (texts.get key) value) ∧ IsRecord texts record) ↔ MembersTell members record := by
  constructor
  · rintro ⟨texts, hkeys, hrecord⟩
    obtain ⟨log, hlog, htext⟩ := hkeys .log
    obtain ⟨stream, hstream, hname⟩ := hkeys .stream
    obtain ⟨time, htime, hstamp⟩ := hkeys .time
    refine ⟨⟨log, hlog, ?_⟩, ⟨stream, _, hstream, hname, hrecord.stream⟩,
      ⟨time, _, htime, hstamp, hrecord.time⟩⟩
    rw [hrecord.payload]
    exact htext
  · rintro ⟨⟨log, hlog, hpayload⟩, ⟨stream, name, hstream, hname, hrecord⟩,
      ⟨time, stamp, htime, hstamp, hread⟩⟩
    refine ⟨⟨record.payload, name, stamp⟩, ?_, ⟨rfl, hrecord, hread⟩⟩
    rintro (_ | _ | _)
    · exact ⟨log, hlog, hpayload⟩
    · exact ⟨stream, hstream, hname⟩
    · exact ⟨time, htime, hstamp⟩

structure TakesObject (members : List RawMember) (behind line : List Char) : Prop where
  /-- It is a record if the three keys say so and only white space follows. -/
  accepted : ∀ record, decodeText decodeJson line = .ok record ↔
    IsSpaces behind ∧ MembersTell members record
  /-- Otherwise it is a failure that quotes the line. -/
  refused : (IsSpaces behind → ∀ record, ¬ MembersTell members record) →
    ∃ fault, decodeText decodeJson line = .error ⟨String.ofList line, fault⟩

/-- Of an object on a JSON line nothing counts but the three keys. -/
theorem takesObject {members : List RawMember} {spaces object behind : List Char}
    (hspaces : IsSpaces spaces) (hobject : RawObject members object) :
    TakesObject members behind (spaces ++ (object ++ behind)) := by
  have haccepted (record : Record) :
      decodeText decodeJson (spaces ++ (object ++ behind)) = .ok record ↔
        IsSpaces behind ∧ MembersTell members record := by
    simp only [decodeText_eq_ok_iff, decodeJson_eq_ok_iff_texts, parse_eq_ok_iff,
      Shape.read_behind_spaces _ hspaces, read_rawObject_eq_ok_iff hobject, ← membersTell_iff,
      ← skipSpaces_eq_nil_iff]
    constructor
    · rintro ⟨texts, ⟨_, ⟨rfl, hkeys⟩, hend⟩, hrecord⟩
      exact ⟨hend, texts, hkeys, hrecord⟩
    · rintro ⟨hend, texts, hkeys, hrecord⟩
      exact ⟨texts, ⟨behind, ⟨rfl, hkeys⟩, hend⟩, hrecord⟩
  refine ⟨haccepted, fun hrefused => ?_⟩
  cases hline : decodeText decodeJson (spaces ++ (object ++ behind)) with
  | ok record =>
    obtain ⟨hbehind, htells⟩ := (haccepted record).mp hline
    exact absurd htells (hrefused hbehind record)
  | error malformed =>
    obtain ⟨line, fault⟩ := malformed
    have hquoted : line = _ := line_of_decodeText hline
    exact ⟨fault, by rw [hquoted]⟩

def crowdedMembers : List RawMember := [
  ("attrs", "\x7b\"tags\" : [\"\\uD800\", -1.5e3]\x7d".toList),
  ("time", "\"2016-10-06T00:17:09Z\"".toList),
  ("log", "\"hel\\u006Co\\n\"".toList),
  ("stream", "\"stdout\"".toList)]

def crowdedObject : List Char :=
  ("\x7b\"attrs\":\x7b\"tags\" : [\"\\uD800\", -1.5e3]\x7d,\"time\":\"2016-10-06T00:17:09Z\"," ++
    "\"log\":\"hel\\u006Co\\n\",\"stream\":\"stdout\"\x7d").toList

theorem memberText_self {name : String} (h : name.toList.all isPlain = true) (value : List Char) :
    MemberText Eq (name, value) ('"' :: name.toList ++ ['"'] ++ ':' :: value) :=
  ⟨_, _, ⟨[], _, [], nofun, stringText_self name h, nofun, rfl⟩,
    ⟨[], _, [], nofun, rfl, nofun, rfl⟩, by simp⟩

theorem jsonText_of_stringText {text : String} {value : List Char} (h : StringText text value) :
    JsonText .value value := by
  obtain ⟨content, hcontent, rfl⟩ := h
  exact .string (rawText_of_spelling hcontent)

/-- Half a surrogate pair and a number, in a list in an object. -/
theorem jsonText_crowdedAttrs :
    JsonText .value "\x7b\"tags\" : [\"\\uD800\", -1.5e3]\x7d".toList := by
  have hnone : IsSpaces [] := nofun
  have hspace : IsSpaces [' '] := by decide
  have hhalf : UnitSpelling 0xd800 "\\uD800".toList :=
    ⟨by decide, by decide, by decide, by decide⟩
  have hstring := JsonText.string (.unit (by decide) hhalf .nil)
  have hwhole : WholeText ['1'] := .digits (by decide) (by decide) nofun
  have hdigits (c : Char) (hc : c.isDigit = true) : IsDigits [c] :=
    ⟨List.cons_ne_nil c [], List.forall_mem_singleton.mpr hc⟩
  have hfraction : FractionText ['.', '5'] := .digits (hdigits '5' rfl)
  have hexponent : ExponentText ['e', '3'] := .digits (.inl rfl) (.inl rfl) (hdigits '3' rfl)
  have hnumber := JsonText.negative (.mk hwhole hfraction hexponent)
  have hlist := JsonText.full
    (.more (.list hnone) hstring hnone (.last (.list hspace) hnumber hnone))
  have hkey : RawText "tags".toList := rawText_of_spelling (spelling_self _ (by decide +kernel))
  have hobject := JsonText.full (.last (.object hnone hkey hspace hspace) hlist hnone)
  exact cast (congrArg (JsonText .value) (by decide +kernel)) hobject

theorem stringText_crowdedTime :
    StringText "2016-10-06T00:17:09Z" "\"2016-10-06T00:17:09Z\"".toList :=
  ⟨_, spelling_self _ (by decide +kernel), by decide +kernel⟩

theorem stringText_crowdedLog : StringText "hello\n" "\"hel\\u006Co\\n\"".toList := by
  have hl : CharSpelling 'l' "\\u006C".toList :=
    .unit (by decide) ⟨by decide, by decide, by decide, by decide⟩
  have hfeed : CharSpelling '\n' "\\n".toList := .short (by decide)
  exact ⟨_, (spelling_self "hel".toList (by decide +kernel)).append
    (.cons hl (.cons (.bare (by decide)) (.cons hfeed .nil))), by decide +kernel⟩

theorem stringText_crowdedStream : StringText "stdout" "\"stdout\"".toList :=
  ⟨_, spelling_self _ (by decide +kernel), by decide +kernel⟩

theorem rawObject_crowded : RawObject crowdedMembers crowdedObject := by
  have hstream := memberText_self (by decide +kernel : "stream".toList.all isPlain = true)
    "\"stdout\"".toList
  have hbody : MembersText Eq crowdedMembers _ :=
    .more (memberText_self (by decide +kernel) _) (.more (memberText_self (by decide +kernel) _)
      (.more (memberText_self (by decide +kernel) _) (.last hstream)))
  have hvalues : ∀ member ∈ crowdedMembers, JsonText .value member.2 := by
    simp only [crowdedMembers, List.forall_mem_cons]
    exact ⟨jsonText_crowdedAttrs, jsonText_of_stringText stringText_crowdedTime,
      jsonText_of_stringText stringText_crowdedLog,
      jsonText_of_stringText stringText_crowdedStream, nofun⟩
  have hobject := RawObject.full hbody hvalues
  exact cast (congrArg (RawObject crowdedMembers) (by decide +kernel)) hobject

theorem takesObject_crowded :
    IsSpaces [' '] ∧ RawObject crowdedMembers crowdedObject ∧
      decodeText decodeJson ([' '] ++ (crowdedObject ++ ['\r', '\n'])) =
        .ok ⟨⟨1475713029, 0⟩, .stdout, "hello\n"⟩ := by
  have hspaces : IsSpaces [' '] := by decide
  have htells : MembersTell crowdedMembers ⟨⟨1475713029, 0⟩, .stdout, "hello\n"⟩ :=
    ⟨⟨_, rfl, stringText_crowdedLog⟩, ⟨_, _, rfl, stringText_crowdedStream, by decide +kernel⟩,
      ⟨_, _, rfl, stringText_crowdedTime, by decide +kernel⟩⟩
  have htaken : TakesObject crowdedMembers ['\r', '\n'] _ := takesObject hspaces rawObject_crowded
  exact ⟨hspaces, rawObject_crowded, (htaken.accepted _).mpr ⟨by decide, htells⟩⟩

end ContainerCheck.Log
