import ContainerCheck.Proofs.LenientTimestamp
import ContainerCheck.Proofs.WrittenJson

namespace ContainerCheck.Log

open ContainerCheck.Text ContainerCheck.Time ContainerCheck.Json

theorem isBlank_of_isSpace {c : Char} (h : isSpace c = true) : isBlank c = true := by
  simp only [isSpace, Bool.or_eq_true, beq_iff_eq] at h
  rcases h with ((rfl | rfl) | rfl) | rfl <;> decide

/-- An object is taken for a JSON line. -/
theorem encodingOf_object {β : Type} {Written : β → List Char → Prop} {members : List (String × β)}
    {line : List Char} (h : Spaced (ObjectText Written members) line) :
    encodingOf line = .json := by
  obtain ⟨before, _, after, hbefore, ⟨body, -, rfl⟩, -, rfl⟩ := h
  rw [encodingOf, dropBlanks_append_of_blanks fun c hc => isBlank_of_isSpace (hbefore c hc),
    List.cons_append, dropBlanks_cons_of_not_blank (by decide)]
  rfl

def taggedLine (stamp stream tag content : String) : List Char :=
  (stamp ++ " " ++ stream ++ " " ++ tag ++ " " ++ content).toList

def lineMembers (stamp stream payload : String) : List (String × String) :=
  [("log", payload), ("stream", stream), ("time", stamp)]

def lineChange (instant : Instant) (member : String × String) (record : Record) : Record :=
  if member.1 = "log" then { record with payload := member.2 }
  else if member.1 = "stream" then { record with stream := .ofName member.2 }
  else { record with timestamp := instant }

section

variable {stamp stream payload : String} {instant : Instant} {members : List (String × String)}

theorem jsonLineShape_stores (hread : readLenient stamp.toList = .ok instant) :
    ∀ member ∈ lineMembers stamp stream payload,
      jsonLineShape.Stores StringText member (lineChange instant member) := by
  simp only [lineMembers, List.forall_mem_cons]
  refine ⟨⟨_, rfl, fun _ h => ?_⟩, ⟨_, rfl, fun _ h => ?_⟩, ⟨_, rfl, fun _ h => ?_⟩, by simp⟩
  · exact Field.of_takes (Reader.named_takes _ h) "log" _
  · exact Field.of_takes (Reader.named_takes _ h) "stream" _
  · exact Field.of_takes (Reader.timestamp_takes h hread) "time" _

/-- Each member has its own part of the record, so their order does not matter. -/
theorem foldl_lineChange (h : members.Perm (lineMembers stamp stream payload)) (record : Record) :
    members.foldl (fun record member => lineChange instant member record) record =
      ⟨instant, .ofName stream, payload⟩ := by
  have hswap : ∀ a ∈ lineMembers stamp stream payload, ∀ b ∈ lineMembers stamp stream payload,
      ∀ record, lineChange instant b (lineChange instant a record) =
        lineChange instant a (lineChange instant b record) := by
    simp [lineMembers, lineChange]
  rw [h.foldl_eq' fun a ha b hb record =>
    hswap a (h.mem_iff.mp ha) b (h.mem_iff.mp hb) record]
  simp [lineMembers, lineChange]

/-- What a JSON line says, in whatever way it is written. -/
theorem decode_jsonLine {line : List Char} (hread : readLenient stamp.toList = .ok instant)
    (hmembers : members.Perm (lineMembers stamp stream payload))
    (hline : Spaced (ObjectText StringText members) line) :
    decode line = .ok ⟨instant, .ofName stream, payload⟩ := by
  have hkeys := hmembers.map Prod.fst
  have hwhole : ∀ field ∈ jsonLineShape.fields, field.name ∈ members.map Prod.fst := by
    intro field hfield
    rw [hkeys.mem_iff]
    simp only [jsonLineShape, List.mem_cons, List.not_mem_nil, or_false] at hfield
    rcases hfield with rfl | rfl | rfl <;> simp [lineMembers, Field.of]
  have hparse := jsonLineShape.parse_object hline (lineChange instant)
    (fun member hmember => jsonLineShape_stores hread member (hmembers.mem_iff.mp hmember))
    (hkeys.nodup_iff.mpr (by simp [lineMembers])) hwhole
  rw [foldl_lineChange hmembers] at hparse
  simp only [decode, encodingOf_object hline, decodeJson, hparse]

end

/-- A tagged line and a JSON line that say the same are the same record. -/
theorem decode_encodings {stamp stream tag : String} {instant : Instant}
    (hread : readStrict stamp.toList = .ok instant) (hstamp : ' ' ∉ stamp.toList)
    (hstream : ' ' ∉ stream.toList) (htag : ' ' ∉ tag.toList) (content : String)
    {members : List (String × String)}
    (hmembers : members.Perm (lineMembers stamp stream (content ++ "\n"))) {line : List Char}
    (hline : Spaced (ObjectText StringText members) line) :
    decode (taggedLine stamp stream tag content) = .ok ⟨instant, .ofName stream, content ++ "\n"⟩ ∧
      decode line = .ok ⟨instant, .ofName stream, content ++ "\n"⟩ := by
  refine ⟨?_, decode_jsonLine (readLenient_of_readStrict hread) hmembers hline⟩
  have htagged := decode_taggedLine hread hstamp hstream htag content.toList
  have hpayload : String.ofList (content.toList ++ ['\n']) = content ++ "\n" := by
    rw [String.ofList_append, String.ofList_toList]
  rw [String.ofList_toList, hpayload] at htagged
  rw [← htagged]
  simp [taggedLine]

def clefMembers : List (String × String) :=
  [("time", "2016-12-31T23:59:60.5+01:30"), ("log", "\"𝄞\n"), ("stream", "stdout")]

/-- A way to write them that escapes more than it must. -/
def clefLine : List Char :=
  (" \x7b\"time\" : \"2016-12-31T23:59:60.5\\u002B01:30\",\t\"log\":\"" ++
    "\\\"\\uD834\\udd1e\\u000a\" ,\"stream\":\"std\\u006Fut\"\x7d\r\n").toList

theorem clefLine_written : Spaced (ObjectText StringText clefMembers) clefLine := by
  have hquote : CharSpelling '"' "\\\"".toList := .short (by decide)
  have hplus : CharSpelling '+' "\\u002B".toList :=
    .unit (by decide) ⟨by decide, by decide, by decide, by decide⟩
  have hclef : CharSpelling '𝄞' ("\\uD834".toList ++ "\\udd1e".toList) :=
    .pair (by decide) ⟨by decide, by decide, by decide, by decide⟩
      ⟨by decide, by decide, by decide, by decide⟩
  have hfeed : CharSpelling '\n' "\\u000a".toList :=
    .unit (by decide) ⟨by decide, by decide, by decide, by decide⟩
  have ho : CharSpelling 'o' "\\u006F".toList :=
    .unit (by decide) ⟨by decide, by decide, by decide, by decide⟩
  have htime : StringText "2016-12-31T23:59:60.5+01:30"
      "\"2016-12-31T23:59:60.5\\u002B01:30\"".toList :=
    ⟨_, (spelling_self "2016-12-31T23:59:60.5".toList (by decide +kernel)).append
      (.cons hplus (spelling_self "01:30".toList (by decide +kernel))), by decide +kernel⟩
  have hlog : StringText "\"𝄞\n" "\"\\\"\\uD834\\udd1e\\u000a\"".toList :=
    ⟨_, .cons hquote (.cons hclef (.cons hfeed .nil)), by decide +kernel⟩
  have hstream : StringText "stdout" "\"std\\u006Fut\"".toList :=
    ⟨_, (spelling_self "std".toList (by decide +kernel)).append
      (.cons ho (spelling_self "ut".toList (by decide +kernel))), by decide +kernel⟩
  have hfirst : MemberText StringText ("time", "2016-12-31T23:59:60.5+01:30")
      "\"time\" : \"2016-12-31T23:59:60.5\\u002B01:30\"".toList :=
    ⟨_, _, ⟨[], _, [' '], by decide, stringText_self "time" (by decide +kernel), by decide, rfl⟩,
      ⟨[' '], _, [], by decide, htime, by decide, rfl⟩, by decide +kernel⟩
  have hsecond : MemberText StringText ("log", "\"𝄞\n")
      "\t\"log\":\"\\\"\\uD834\\udd1e\\u000a\" ".toList :=
    ⟨_, _, ⟨['\t'], _, [], by decide, stringText_self "log" (by decide +kernel), by decide, rfl⟩,
      ⟨[], _, [' '], by decide, hlog, by decide, rfl⟩, by decide +kernel⟩
  have hthird : MemberText StringText ("stream", "stdout")
      "\"stream\":\"std\\u006Fut\"".toList :=
    ⟨_, _, ⟨[], _, [], by decide, stringText_self "stream" (by decide +kernel), by decide, rfl⟩,
      ⟨[], _, [], by decide, hstream, by decide, rfl⟩, by decide +kernel⟩
  exact ⟨[' '], _, ['\r', '\n'], by decide, ⟨_, .more hfirst (.more hsecond (.last hthird)), rfl⟩,
    by decide, by decide +kernel⟩

/-- A leap second at an offset, said on a tagged line and on a JSON line. -/
theorem decode_encodings_clef :
    decode (taggedLine "2016-12-31T23:59:60.5+01:30" "stdout" "F" "\"𝄞") =
        .ok ⟨⟨1483223399, 1500000000⟩, .stdout, "\"𝄞\n"⟩ ∧
      decode clefLine = .ok ⟨⟨1483223399, 1500000000⟩, .stdout, "\"𝄞\n"⟩ := by
  have hmembers : clefMembers.Perm
      (lineMembers "2016-12-31T23:59:60.5+01:30" "stdout" ("\"𝄞" ++ "\n")) := by
    decide
  exact decode_encodings (by decide +kernel) (by decide) (by decide) (by decide) "\"𝄞"
    hmembers clefLine_written

end ContainerCheck.Log
