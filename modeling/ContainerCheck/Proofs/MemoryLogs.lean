import ContainerCheck.Proofs.DefaultLog
import ContainerCheck.Proofs.Encodings
import ContainerCheck.Proofs.MemoryRuntime
import ContainerCheck.Proofs.PrintedJson

namespace ContainerCheck

open ContainerCheck.Cri ContainerCheck.Host ContainerCheck.Check ContainerCheck.Session
open ContainerCheck.Text ContainerCheck.Json ContainerCheck.Log ContainerCheck.Time

namespace Cri

section

variable {time : Instant} (htime : time.Plain)

def logObject (time : Instant) (text : String) : Value :=
  .object (stringMembers (lineMembers (String.ofList (time.text .nine)) "stdout" text))

include htime

/-- A JSON line says what its text is, also where the text has line ends in it. -/
theorem readRecords_jsonLogLine (text : String) :
    readRecords (jsonLogLine time text) = .ok [⟨time, .stdout, text⟩] := by
  have hwritten : ObjectText StringText
      (lineMembers (String.ofList (time.text .nine)) "stdout" text)
      (logObject time text).chars := objectText_chars (List.cons_ne_nil _ _)
  have hread : readLenient (String.ofList (time.text .nine)).toList = .ok time := by
    rw [String.toList_ofList]
    exact readLenient_text htime.toShown .nine
  have hline : decode (logObject time text).chars = .ok ⟨time, .stdout, text⟩ :=
    decode_jsonLine hread (.refl _) (spaced_self hwritten)
  have hprintable := isPrintable_chars (logObject time text)
  have hbytes : jsonLogLine time text = encode (logObject time text).chars ++ 10 :: [] := by
    unfold jsonLogLine
    exact encode_append _ _
  generalize (logObject time text).chars = chars at hline hprintable hbytes
  have hreturn : withoutReturn chars = chars := by
    rw [withoutReturn_eq_iff]
    intro hlast
    exact absurd (hprintable '\r' (List.mem_of_getLast? hlast)) (by decide)
  have hdecode : decodeLine (encode chars) = .ok ⟨time, .stdout, text⟩ := by
    have htext := decodeLossy_encode_append chars []
    rw [List.append_nil, decodeLossy, List.append_nil] at htext
    simp only [decodeLine, trimReturn_encode, hreturn, htext, hline]
  have hfeed : 10 ∉ encode chars := by
    rw [newline_mem_encode_iff]
    intro hmem
    exact absurd (hprintable '\n' hmem) (by decide)
  rw [hbytes]
  exact readRecords_line hfeed hdecode rfl

theorem readRecords_taggedLogLine :
    readRecords (taggedLogLine time) = .ok [⟨time, .stdout, "hello World\n"⟩] := by
  have hread := readStrict_text htime .nine
  have hspace : ' ' ∉ time.text .nine := not_mem_instant (by decide) (by decide) time
  have hbytes : taggedLogLine time =
      encode (messageText (time.text .nine) "hello World".toList) ++ 10 :: [] := by
    rw [show (10 :: [] : List UInt8) = encode ['\n'] by decide, ← encode_append]
    simp [taggedLogLine, messageText]
  rw [hbytes]
  exact readRecords_line (newline_not_mem_message hread (by decide))
    (decodeLine_message hread hspace _) rfl

end

end Cri

variable {tree : Tree} {sandboxes : List (SandboxId × SandboxConfig)}
  {containers : List MemoryContainer} {path : String} {content : List UInt8} {records : List Record}

theorem leads_readLog (hfile : tree.read path = .ok content)
    (hrecords : readRecords content = .ok records) :
    Leads (Store.Shows tree sandboxes containers) (Session.readLog path) fun seen store =>
      seen = records ∧ store.Shows tree sandboxes containers := by
  refine leads_inspect fun store h => ⟨records, ?_, rfl, h⟩
  rw [h.tree, hfile]
  simp only [recordsOf, hostResult, contentRecords, hrecords]

namespace Check.Harness

variable {config : Config}

theorem leads_waitForLog (hfile : tree.read path = .ok content)
    (hrecords : readRecords content = .ok records) (hne : records ≠ []) :
    Leads (Store.Shows tree sandboxes containers) ((inMemory config).waitForLog path)
      fun _ => Store.Shows tree sandboxes containers := by
  have hprobe : Leads (Store.Shows tree sandboxes containers) (Session.readLog path)
      fun seen store => (!seen.isEmpty) = true ∧ store.Shows tree sandboxes containers := by
    refine (leads_readLog hfile hrecords).mono ?_
    rintro seen store ⟨rfl, h⟩
    exact ⟨by simpa using hne, h⟩
  exact leads_waitFor hprobe _ _ _ _

theorem leads_verifyDefaultLog
    {time : Instant} (htime : time.Plain)
    (hfile : tree.read path = .ok (jsonLogLine time (config.defaultLog ++ "\n"))) :
    Leads (Store.Shows tree sandboxes containers) ((inMemory config).verifyDefaultLog path)
      fun _ => Store.Shows tree sandboxes containers := by
  refine (leads_readLog hfile (readRecords_jsonLogLine htime _)).bind fun seen => .of_and ?_
  rintro rfl
  have hfound : requireMessage [⟨time, .stdout, config.defaultLog ++ "\n"⟩]
      (config.defaultLog ++ "\n") .stdout = .ok () := by
    rw [requireMessage_eq_ok_iff, contains_eq_true_iff]
    exact ⟨_, List.mem_singleton_self _, rfl, rfl⟩
  have hlift : (inMemory config).config.defaultLog = config.defaultLog := rfl
  rw [hlift, hfound]
  exact leads_lift fun _ h => h

theorem leads_verifyUnchanged (hinterval : config.logPollIntervalMs ≠ 0)
    (hfile : tree.read path = .ok content) (hrecords : readRecords content = .ok records) :
    Leads (Store.Shows tree sandboxes containers)
      ((inMemory config).verifyUnchanged path records.length)
      fun _ => Store.Shows tree sandboxes containers := by
  have hprobe : Leads (Store.Shows tree sandboxes containers)
      (do return (← Session.readLog path).length) fun seen store =>
        (seen == records.length) = true ∧ store.Shows tree sandboxes containers := by
    refine (leads_readLog hfile hrecords).bind fun seen => .of_and ?_
    rintro rfl
    exact .pure fun store h => ⟨by simp, h⟩
  have hclock : ∀ w : World Memory,
      w.clock ≤ ((do return (← Session.readLog path).length : Session Memory Nat) w).2.clock := by
    intro w
    have hread : (Session.readLog path w).2.clock = w.clock := rfl
    rw [bind_run]
    rcases hrun : Session.readLog path w with ⟨result, w'⟩
    rw [hrun] at hread
    cases result with
    | ok seen => exact Nat.le_of_eq hread.symm
    | error error => exact Nat.le_of_eq hread.symm
  have hpause : config.logPollInterval ≠ 0 := by
    unfold Config.logPollInterval milliseconds
    omega
  exact (leads_hold hclock hprobe hpause _ _ _).bind fun _ => .pure fun _ h => h

end Check.Harness

end ContainerCheck
