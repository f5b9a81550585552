import ContainerCheck.CommandLine.Command
import ContainerCheck.Proofs.GrowingLogs
import ContainerCheck.Proofs.OverlaidObjects
import ContainerCheck.Proofs.Utf8
import Mathlib.Data.Finset.Dedup
import Mathlib.Data.Finset.Insert

namespace ContainerCheck

open ContainerCheck.Json

namespace Config

inductive Key
  | stopContainerTimeoutSecs
  | execSyncTimeoutSecs
  | defaultLog
  | statePollIntervalMs
  | statePollTimeoutMs
  | logPollIntervalMs
  | logPollTimeoutMs
  | logSteadyWindowMs
  | defaultImage
  | defaultVolumeImage
  | defaultAttempt
deriving DecidableEq

namespace Key

def name : Key → String
  | stopContainerTimeoutSecs => "stop_container_timeout_secs"
  | execSyncTimeoutSecs => "exec_sync_timeout_secs"
  | defaultLog => "default_log"
  | statePollIntervalMs => "state_poll_interval_ms"
  | statePollTimeoutMs => "state_poll_timeout_ms"
  | logPollIntervalMs => "log_poll_interval_ms"
  | logPollTimeoutMs => "log_poll_timeout_ms"
  | logSteadyWindowMs => "log_steady_window_ms"
  | defaultImage => "default_image"
  | defaultVolumeImage => "default_volume_image"
  | defaultAttempt => "default_attempt"

def limit : Key → Nat
  | defaultAttempt => Nat.pow 2 32
  | _ => Nat.pow 2 64

def all : List Key := [
  stopContainerTimeoutSecs, execSyncTimeoutSecs, defaultLog, statePollIntervalMs,
  statePollTimeoutMs, logPollIntervalMs, logPollTimeoutMs, logSteadyWindowMs, defaultImage,
  defaultVolumeImage, defaultAttempt]

theorem mem_all (key : Key) : key ∈ all := by
  cases key <;> decide

def ofName? (name : String) : Option Key := all.find? fun key => key.name = name

theorem ofName?_eq_some_iff {name : String} {key : Key} :
    ofName? name = some key ↔ name = key.name := by
  constructor
  · intro h
    have hfound := List.find?_some h
    exact (of_decide_eq_true hfound).symm
  · rintro rfl
    cases key <;> rfl

end Key

def get (c : Config) : Key → Value
  | .stopContainerTimeoutSecs => .number c.stopContainerTimeoutSecs
  | .execSyncTimeoutSecs => .number c.execSyncTimeoutSecs
  | .defaultLog => .string c.defaultLog
  | .statePollIntervalMs => .number c.statePollIntervalMs
  | .statePollTimeoutMs => .number c.statePollTimeoutMs
  | .logPollIntervalMs => .number c.logPollIntervalMs
  | .logPollTimeoutMs => .number c.logPollTimeoutMs
  | .logSteadyWindowMs => .number c.logSteadyWindowMs
  | .defaultImage => .string c.defaultImage
  | .defaultVolumeImage => .string c.defaultVolumeImage
  | .defaultAttempt => .number c.defaultAttempt

def copy (c : Config) (key : Key) (draft : Config) : Config :=
  match key with
  | .stopContainerTimeoutSecs =>
    { draft with stopContainerTimeoutSecs := c.stopContainerTimeoutSecs }
  | .execSyncTimeoutSecs => { draft with execSyncTimeoutSecs := c.execSyncTimeoutSecs }
  | .defaultLog => { draft with defaultLog := c.defaultLog }
  | .statePollIntervalMs => { draft with statePollIntervalMs := c.statePollIntervalMs }
  | .statePollTimeoutMs => { draft with statePollTimeoutMs := c.statePollTimeoutMs }
  | .logPollIntervalMs => { draft with logPollIntervalMs := c.logPollIntervalMs }
  | .logPollTimeoutMs => { draft with logPollTimeoutMs := c.logPollTimeoutMs }
  | .logSteadyWindowMs => { draft with logSteadyWindowMs := c.logSteadyWindowMs }
  | .defaultImage => { draft with defaultImage := c.defaultImage }
  | .defaultVolumeImage => { draft with defaultVolumeImage := c.defaultVolumeImage }
  | .defaultAttempt => { draft with defaultAttempt := c.defaultAttempt }

def InRange (c : Config) : Prop := ∀ key n, c.get key = .number n → n < key.limit

section

variable {c d : Config} {key : Key}

theorem get_copy (c : Config) (key : Key) (draft : Config) (other : Key) :
    (c.copy key draft).get other = if other = key then c.get key else draft.get other := by
  cases key <;> cases other <;> rfl

/-- A configuration is known by its fields. -/
theorem ext_get (h : ∀ key, c.get key = d.get key) : c = d := by
  have hvalues : Key.all.map c.get = Key.all.map d.get := List.map_congr_left fun key _ => h key
  cases c
  cases d
  simpa [Key.all, get] using hvalues

theorem toValue_eq (c : Config) :
    c.toValue = .object (Key.all.map fun key => (key.name, c.get key)) := rfl

theorem find?_eq_none {name : String} (h : Key.ofName? name = none) : shape.find? name = none := by
  have hnames : shape.fields.map Field.name = Key.all.map Key.name := rfl
  rw [Shape.find?, List.find?_eq_none]
  intro field hfield hname
  have hmem : field.name ∈ Key.all.map Key.name := hnames ▸ List.mem_map_of_mem hfield
  obtain ⟨key, -, hkey⟩ := List.mem_map.mp hmem
  rw [Key.ofName?_eq_some_iff.mpr (hkey.trans (beq_iff_eq.mp hname)).symm] at h
  cases h

/-- A written value of a field is read as the change it makes. -/
theorem changes_copy (hrange : c.InRange) {written : List Char}
    (h : PlainText (c.get key) written) : shape.Changes (key.name, written) (c.copy key) := by
  have hbound := hrange key
  -- Which field is found for a key, the list of fields tells by evaluation.
  cases key with
  | defaultLog | defaultImage | defaultVolumeImage =>
    exact .inl ⟨_, rfl, Field.of_takesStopped (Reader.string_takesStopped h) _ _⟩
  | defaultAttempt =>
    exact .inl ⟨_, rfl, Field.of_takesStopped (Reader.nat32_takesStopped h (hbound _ rfl)) _ _⟩
  | _ => exact .inl ⟨_, rfl, Field.of_takesStopped (Reader.nat64_takesStopped h (hbound _ rfl)) _ _⟩

def change (c : Config) (member : Log.RawMember) : Config → Config :=
  match Key.ofName? member.1 with
  | some key => c.copy key
  | none => id

theorem change_of_name (c : Config) {member : Log.RawMember} (h : member.1 = key.name) :
    c.change member = c.copy key := by
  rw [change, Key.ofName?_eq_some_iff.mpr h]

theorem get_change (c : Config) (member : Log.RawMember) (draft : Config) (key : Key) :
    (c.change member draft).get key =
      if member.1 = key.name then c.get key else draft.get key := by
  by_cases hkey : member.1 = key.name
  · rw [change_of_name c hkey, get_copy, if_pos rfl, if_pos hkey]
  · rw [if_neg hkey]
    cases hname : Key.ofName? member.1 with
    | none => simp [change, hname]
    | some other =>
      have hother := Key.ofName?_eq_some_iff.mp hname
      have hne : key ≠ other := fun h => hkey (h ▸ hother)
      rw [change_of_name c hother, get_copy, if_neg hne]

/-- A field that is given has its value in the end, and another one keeps what it had. -/
theorem get_foldl_change (c : Config) (members : List Log.RawMember) (draft : Config) (key : Key) :
    (members.foldl (fun draft member => c.change member draft) draft).get key =
      if key.name ∈ members.map Prod.fst then c.get key else draft.get key := by
  induction members generalizing draft with
  | nil => rfl
  | cons member members ih =>
    rw [List.foldl_cons, ih, get_change]
    simp only [List.map_cons, List.mem_cons, eq_comm (a := key.name)]
    by_cases hlater : key.name ∈ members.map Prod.fst
    · simp [hlater]
    · simp [hlater]

/-- Members give each of some fields once, with the value it has, and no other field. -/
structure IsGivenBy (c : Config) (keys : Finset Key) (members : List Log.RawMember) : Prop where
  given : ∀ key ∈ keys, ∃ value, valuesUnder members key.name = [value] ∧
    PlainText (c.get key) value
  absent : ∀ key ∉ keys, valuesUnder members key.name = []

section

variable {c : Config} {keys : Finset Key} {members : List Log.RawMember}

theorem IsGivenBy.mem_iff (h : c.IsGivenBy keys members) (key : Key) :
    key.name ∈ members.map Prod.fst ↔ key ∈ keys := by
  constructor
  · intro hmem
    obtain ⟨⟨_, value⟩, hmember, rfl⟩ := List.mem_map.mp hmem
    by_contra hkey
    have hvalue := mem_valuesUnder.mpr hmember
    rw [h.absent key hkey] at hvalue
    cases hvalue
  · intro hkey
    obtain ⟨value, hvalues, -⟩ := h.given key hkey
    have hvalue : value ∈ valuesUnder members key.name := hvalues ▸ List.mem_singleton_self value
    exact List.mem_map_of_mem (mem_valuesUnder.mp hvalue)

theorem IsGivenBy.length_valuesUnder (h : c.IsGivenBy keys members) (key : Key) :
    (valuesUnder members key.name).length ≤ 1 := by
  by_cases hmem : key ∈ keys
  · obtain ⟨value, hvalues, -⟩ := h.given key hmem
    rw [hvalues, List.length_singleton]
  · rw [h.absent key hmem, List.length_nil]
    exact Nat.zero_le 1

theorem IsGivenBy.overlay (h : c.IsGivenBy keys members) (hrange : c.InRange) :
    shape.Overlay members c.change := by
  constructor
  · rintro ⟨name, value⟩ hmember
    cases hname : Key.ofName? name with
    | none => exact .inr ⟨find?_eq_none hname, by simp [change, hname]⟩
    | some key =>
      obtain rfl := Key.ofName?_eq_some_iff.mp hname
      obtain ⟨only, hvalues, hplain⟩ :=
        h.given key ((h.mem_iff key).mp (List.mem_map_of_mem hmember))
      have hvalue := mem_valuesUnder.mpr hmember
      rw [hvalues, List.mem_singleton] at hvalue
      rw [c.change_of_name rfl, hvalue]
      exact changes_copy hrange hplain
  · have hsingle : ∀ name, Key.ofName? name ≠ none → (valuesUnder members name).length ≤ 1 := by
      intro name hname
      obtain ⟨key, hkey⟩ := Option.ne_none_iff_exists'.mp hname
      rw [Key.ofName?_eq_some_iff.mp hkey]
      exact h.length_valuesUnder key
    exact (pairwise_of_valuesUnder _ hsingle).imp fun hdifferent hsame =>
      find?_eq_none (not_not.mp (hdifferent hsame))

/-- An object of some fields is read as the defaults with these in place. -/
theorem exists_parse_of_isGivenBy (h : c.IsGivenBy keys members) (hrange : c.InRange)
    {text : List Char} (htext : Spaced (Log.RawObject members) text) :
    ∃ m : Config, (∀ key, m.get key = if key ∈ keys then c.get key else ({} : Config).get key) ∧
      parse text = .ok m := by
  have hread := shape.parse_overlay rfl (h.overlay hrange) htext
  refine ⟨_, fun key => ?_, by rw [parse, hread]⟩
  simp only [get_foldl_change, h.mem_iff]
  rfl

end

def intervalViolations (poll : String) (interval window : Nat) : List ConfigFault :=
  (if interval = 0 then [.zeroInterval poll] else []) ++
    if window < interval then [.longInterval poll interval window] else []

/-- All that is wrong with a configuration, in the order in which it is told. -/
def violations (c : Config) : List ConfigFault :=
  intervalViolations "state poll" c.statePollIntervalMs c.statePollTimeoutMs ++
    (intervalViolations "log poll" c.logPollIntervalMs c.logPollTimeoutMs ++
      (intervalViolations "log steady" c.logPollIntervalMs c.logSteadyWindowMs ++
        if '\n' ∈ c.defaultLog.toList then [.multipleLines] else []))

def firstOf : List ConfigFault → Except ConfigFault Unit
  | [] => .ok ()
  | fault :: _ => .error fault

theorem checkInterval_bind (poll : String) (interval window : Nat) (later : List ConfigFault) :
    (checkInterval poll interval window >>= fun _ => firstOf later) =
      firstOf (intervalViolations poll interval window ++ later) := by
  unfold checkInterval intervalViolations
  split_ifs <;> rfl

/-- The first of all violations is told. -/
theorem validate_eq_firstOf (c : Config) : c.validate = firstOf c.violations := by
  rw [violations, ← checkInterval_bind, ← checkInterval_bind, ← checkInterval_bind]
  unfold validate
  split_ifs <;> rfl

/-- What loading makes of the configuration that a file stands for. -/
structure LoadsAs (m : Config) (loaded : Except Error Config) : Prop where
  accepted : m.validate = .ok () → loaded = .ok m
  /-- Of all violations the first is told. -/
  refused : ∀ fault, m.validate = .error fault →
    loaded = .error (.config fault) ∧ m.violations.head? = some fault

theorem load_loadsAs {text : List Char} {m : Config} (h : parse text = .ok m) :
    m.LoadsAs (load text) := by
  constructor
  · intro hvalid
    simp only [load, h, hvalid]
  · intro fault hfault
    refine ⟨by simp only [load, h, hfault], ?_⟩
    rw [validate_eq_firstOf] at hfault
    cases hviolations : m.violations with
    | nil =>
      rw [hviolations] at hfault
      cases hfault
    | cons first later =>
      rw [hviolations] at hfault
      cases hfault
      rfl

theorem plainText_chars (c : Config) (key : Key) : PlainText (c.get key) (c.get key).chars := by
  have hnumber (n : Nat) : PlainText (.number n) (Value.number n).chars := by
    rw [Value.chars]
    exact .number n
  cases key
  case defaultLog | defaultImage | defaultVolumeImage => exact .string (stringText_chars _)
  all_goals exact hnumber _

/-- A printed configuration gives all of its fields. -/
theorem isGivenBy_printed (c : Config) :
    c.IsGivenBy Key.all.toFinset (Key.all.map fun key => (key.name, (c.get key).chars)) := by
  constructor
  · intro key _
    exact ⟨(c.get key).chars, by cases key <;> rfl, plainText_chars c key⟩
  · intro key hkey
    exact absurd (List.mem_toFinset.mpr key.mem_all) hkey

theorem rawObject_printed (c : Config) :
    Log.RawObject (Key.all.map fun key => (key.name, (c.get key).chars)) c.toValue.chars := by
  rw [toValue_eq]
  have hjson : ∀ member ∈ Key.all.map fun key => (key.name, c.get key),
      JsonText .value member.2.chars :=
    List.forall_mem_map.mpr fun key _ => (plainText_chars c key).json
  have hraw := rawObject_chars hjson
  rwa [List.map_map] at hraw

end

end Config

namespace CommandLine

open ContainerCheck.Text

/-- How a file overrides the defaults with values of a configuration. -/
structure Overrides (c : Config) : Prop where
  /-- Any fields may be given, in any order and among members that are no fields. They are loaded as
  what they make of the defaults, and are checked as that. -/
  merged : ∀ {σ : Type} (path : String) (w : World σ) (keys : Finset Config.Key)
    (members : List Log.RawMember) (text : List Char), c.IsGivenBy keys members →
    Spaced (Log.RawObject members) text → w.tree.read path = .ok (encode text) →
      ∃ m : Config, (∀ key, m.get key = if key ∈ keys then c.get key else ({} : Config).get key) ∧
        m.LoadsAs (loadConfig (some path) w).1
  /-- What is printed of a valid configuration is loaded as this configuration. -/
  printed : ∀ {σ : Type} (path : String) (w : World σ), c.validate = .ok () →
    w.tree.read path = .ok (encode c.toValue.text.toList) → (loadConfig (some path) w).1 = .ok c

theorem loadConfig_encode {σ : Type} {path : String} {w : World σ} {text : List Char}
    (h : w.tree.read path = .ok (encode text)) :
    (loadConfig (some path) w).1 = Config.load text := by
  have hdecode := decodeLossy_encode_append text []
  rw [List.append_nil] at hdecode
  change configOf path (w.tree.read path) = _
  simp only [h, configOf, hostResult, decode?, hdecode, decodeLossy, List.append_nil, if_true]

/-- Some fields that are given are loaded as what they make of the defaults. -/
theorem exists_loadsAs {σ : Type} {c : Config} (hrange : c.InRange) {path : String} {w : World σ}
    {keys : Finset Config.Key} {members : List Log.RawMember} {text : List Char}
    (hgiven : c.IsGivenBy keys members) (htext : Spaced (Log.RawObject members) text)
    (hread : w.tree.read path = .ok (encode text)) :
    ∃ m : Config, (∀ key, m.get key = if key ∈ keys then c.get key else ({} : Config).get key) ∧
      m.LoadsAs (loadConfig (some path) w).1 := by
  obtain ⟨m, hm, hparse⟩ := Config.exists_parse_of_isGivenBy hgiven hrange htext
  rw [loadConfig_encode hread]
  exact ⟨m, hm, Config.load_loadsAs hparse⟩

/-- A file overrides the defaults field by field. -/
theorem loadConfig_overrides (c : Config) (hrange : c.InRange) : Overrides c := by
  constructor
  · intro σ path w keys members text hgiven htext hread
    exact exists_loadsAs hrange hgiven htext hread
  · intro σ path w hvalid hread
    rw [Value.text, String.toList_ofList] at hread
    obtain ⟨m, hm, hloads⟩ :=
      exists_loadsAs hrange c.isGivenBy_printed (spaced_self c.rawObject_printed) hread
    obtain rfl : m = c := Config.ext_get fun key => by
      rw [hm, if_pos (List.mem_toFinset.mpr key.mem_all)]
    exact hloads.accepted hvalid

def hastyConfig : Config :=
  { statePollIntervalMs := 0, logPollIntervalMs := 70000, defaultLog := "bye" }

def byeConfig : Config := { defaultLog := "bye" }

def hastyMembers : List Log.RawMember := [
  ("extra", "[1]".toList),
  ("log_poll_interval_ms", decimal 70000),
  ("default_log", "\"bye\"".toList)]

def hastyText : List Char :=
  "\x7b\"extra\":[1],\"log_poll_interval_ms\":70000,\"default_log\":\"bye\"\x7d".toList

theorem inRange_hasty : hastyConfig.InRange := by
  intro key n h
  cases key <;> cases h <;> decide

theorem isGivenBy_hasty :
    hastyConfig.IsGivenBy {.defaultLog, .logPollIntervalMs} hastyMembers := by
  constructor
  · intro key hkey
    rcases Finset.mem_insert.mp hkey with rfl | hkey
    · exact ⟨_, rfl, .string (stringText_self "bye" (by decide +kernel))⟩
    · obtain rfl := Finset.mem_singleton.mp hkey
      exact ⟨_, rfl, .number 70000⟩
  · intro key hkey
    cases key
    case defaultLog | logPollIntervalMs => exact absurd (by decide) hkey
    all_goals rfl

theorem rawObject_hasty : Log.RawObject hastyMembers hastyText := by
  have hnone : IsSpaces [] := nofun
  have hone : JsonText .value ['1'] := jsonText_decimal 1
  have hlist : JsonText .value "[1]".toList := .full (.last (.list hnone) hone hnone)
  have hbye : StringText "bye" "\"bye\"".toList := stringText_self "bye" (by decide +kernel)
  have hbody : MembersText Eq hastyMembers _ :=
    .more (Log.memberText_self (by decide +kernel) _)
      (.more (Log.memberText_self (by decide +kernel) _)
        (.last (Log.memberText_self (by decide +kernel) _)))
  have hvalues : ∀ member ∈ hastyMembers, JsonText .value member.2 := by
    simp only [hastyMembers, List.forall_mem_cons]
    exact ⟨hlist, jsonText_decimal 70000, Log.jsonText_of_stringText hbye, nofun⟩
  exact cast (congrArg (Log.RawObject hastyMembers) (by decide +kernel)) (.full hbody hvalues)

/-- The pause that is given fits neither of its windows, which have their defaults. The first of the
two is told, and nothing of a field that is not given. What is printed is loaded as it was. -/
theorem loadConfig_overrides_hasty :
    hastyConfig.InRange ∧
      hastyConfig.IsGivenBy {.defaultLog, .logPollIntervalMs} hastyMembers ∧
      Spaced (Log.RawObject hastyMembers) hastyText ∧
      (loadConfig (some "a.log") (Log.worldWithLog (encode hastyText))).1 =
        .error (.config (.longInterval "log poll" 70000 60000)) ∧
      (loadConfig (some "a.log") (Log.worldWithLog (encode byeConfig.toValue.text.toList))).1 =
        .ok byeConfig := by
  have hspaced : Spaced (Log.RawObject hastyMembers) hastyText := spaced_self rawObject_hasty
  refine ⟨inRange_hasty, isGivenBy_hasty, hspaced, ?_, ?_⟩
  · have hoverrides : Overrides hastyConfig := loadConfig_overrides hastyConfig inRange_hasty
    obtain ⟨m, hm, hloads⟩ := hoverrides.merged "a.log" _ _ _ _ isGivenBy_hasty hspaced
      (Log.read_worldWithLog _)
    obtain rfl : m = { byeConfig with logPollIntervalMs := 70000 } := Config.ext_get fun key => by
      rw [hm]
      cases key <;> rfl
    exact (hloads.refused _ rfl).1
  · have hrange : byeConfig.InRange := by
      intro key n h
      cases key <;> cases h <;> decide
    exact (loadConfig_overrides byeConfig hrange).printed "a.log" _ rfl (Log.read_worldWithLog _)

end CommandLine

end ContainerCheck
