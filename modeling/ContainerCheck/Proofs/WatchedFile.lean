import ContainerCheck.CommandLine.Command
import ContainerCheck.Proofs.Calls
import ContainerCheck.Proofs.Conduct
import ContainerCheck.Proofs.GrowingFiles
import ContainerCheck.Proofs.GrowingLogs

namespace ContainerCheck

open ContainerCheck.Host ContainerCheck.Poll

variable {σ : Type}

namespace Log

def Holds (tree : Tree) (file : String) (records : List Record) : Prop :=
  ∃ content, tree.read file = .ok content ∧ IsWhole content ∧ readRecords content = .ok records

structure Write where
  due : Nat
  content : List UInt8
  records : List Record
  whole : IsWhole content
  decodes : readRecords content = .ok records

namespace Write

def event (file : String) (write : Write) : Event σ :=
  .ofAction write.due (.append file write.content)

def Ordered (writes : List Write) : Prop := writes.Pairwise fun a b => a.due ≤ b.due

theorem mem_takeWhile_iff {writes : List Write} (h : Ordered writes) {time : Nat} {write : Write} :
    write ∈ writes.takeWhile (fun other => other.due ≤ time) ↔
      write ∈ writes ∧ write.due ≤ time := by
  induction writes with
  | nil => simp
  | cons first writes ih =>
    obtain ⟨hfirst, hrest⟩ := List.pairwise_cons.mp h
    by_cases hdue : first.due ≤ time
    · rw [List.takeWhile_cons_of_pos (by simpa using hdue), List.mem_cons, List.mem_cons, ih hrest]
      constructor
      · rintro (rfl | ⟨hmem, hle⟩)
        · exact ⟨.inl rfl, hdue⟩
        · exact ⟨.inr hmem, hle⟩
      · rintro ⟨rfl | hmem, hle⟩
        · exact .inl rfl
        · exact .inr ⟨hmem, hle⟩
    · -- What comes behind a write that is not due is not due either.
      rw [List.takeWhile_cons_of_neg (by simpa using hdue)]
      refine iff_of_false List.not_mem_nil ?_
      rintro ⟨hmem, hle⟩
      rcases List.mem_cons.mp hmem with rfl | hmem
      · exact hdue hle
      · exact hdue (Nat.le_trans (hfirst write hmem) hle)

theorem mem_dropWhile_iff {writes : List Write} (h : Ordered writes) {time : Nat} {write : Write} :
    write ∈ writes.dropWhile (fun other => other.due ≤ time) ↔
      write ∈ writes ∧ time < write.due := by
  induction writes with
  | nil => simp
  | cons first writes ih =>
    obtain ⟨hfirst, hrest⟩ := List.pairwise_cons.mp h
    by_cases hdue : first.due ≤ time
    · rw [List.dropWhile_cons_of_pos (by simpa using hdue), ih hrest]
      refine and_congr_left fun hlt => ⟨List.mem_cons_of_mem _, fun hmem => ?_⟩
      rcases List.mem_cons.mp hmem with rfl | hmem
      · omega
      · exact hmem
    · rw [List.dropWhile_cons_of_neg (by simpa using hdue)]
      refine ⟨fun hmem => ⟨hmem, ?_⟩, And.left⟩
      rcases List.mem_cons.mp hmem with rfl | hmem
      · omega
      · have := hfirst write hmem
        omega

/-- A write that is scheduled finds its place among those that are. -/
theorem insertEvent_event (file : String) (write : Write) (writes : List Write) :
    ∃ all : List Write,
      insertEvent (write.event file : Event σ) (writes.map (event file)) = all.map (event file) ∧
        all.Perm (write :: writes) ∧ (Ordered writes → Ordered all) := by
  induction writes with
  | nil => exact ⟨[write], rfl, .refl _, fun _ => List.pairwise_singleton _ _⟩
  | cons first writes ih =>
    obtain ⟨all, hinsert, hperm, hordered⟩ := ih
    rw [List.map_cons, insertEvent]
    split
    · next hle =>
      refine ⟨first :: all, ?_, ?_, ?_⟩
      · rw [hinsert, List.map_cons]
      · exact (hperm.cons first).trans (.swap write first writes)
      · intro h
        obtain ⟨hfirst, hrest⟩ := List.pairwise_cons.mp h
        refine List.pairwise_cons.mpr ⟨fun other hother => ?_, hordered hrest⟩
        rcases List.mem_cons.mp (hperm.mem_iff.mp hother) with rfl | hmem
        · exact hle
        · exact hfirst other hmem
    · next hlt =>
      refine ⟨write :: first :: writes, rfl, .refl _, ?_⟩
      intro h
      refine List.pairwise_cons.mpr ⟨fun other hother => ?_, h⟩
      have hsoon : write.due ≤ first.due := Nat.le_of_not_le hlt
      rcases List.mem_cons.mp hother with rfl | hmem
      · exact hsoon
      · exact Nat.le_trans hsoon ((List.pairwise_cons.mp h).1 other hmem)

theorem pending_schedule (file : String) (writes : List Write) {w : World σ} {before : List Write}
    (hpending : w.pending = before.map (event file)) (hordered : Ordered before) :
    ∃ all : List Write, ((writes.map (event file)).foldl World.schedule w).pending =
      all.map (event file) ∧ all.Perm (writes ++ before) ∧ Ordered all := by
  induction writes generalizing w before with
  | nil => exact ⟨before, hpending, .refl _, hordered⟩
  | cons write writes ih =>
    obtain ⟨next, hinsert, hnext, hkeeps⟩ := @insertEvent_event σ file write before
    have hscheduled : (w.schedule (write.event file)).pending = next.map (event file) := by
      rw [← hinsert, ← hpending]
      rfl
    obtain ⟨all, hall, hperm, hall'⟩ := ih hscheduled (hkeeps hordered)
    refine ⟨all, hall, hperm.trans ?_, hall'⟩
    exact (hnext.append_left writes).trans List.perm_middle

end Write

theorem Holds.apply {file : String} {store : Store σ} {records : List Record}
    (h : Holds store.tree file records) (write : Write) :
    Holds ((write.event file).effect store).tree file (records ++ write.records) := by
  obtain ⟨content, hread, hwhole, hdecodes⟩ := h
  refine ⟨content ++ write.content, ?_, hwhole.append write.whole, ?_⟩
  · exact FileAction.read_attempt_append hread write.content
  · exact (readRecords_append_eq_ok_iff hwhole).mpr ⟨_, _, hdecodes, write.decodes, rfl⟩

theorem Holds.applyAll {file : String} {store : Store σ} {records : List Record}
    (h : Holds store.tree file records) (writes : List Write) :
    Holds ((writes.map (Write.event file)).foldl (fun store event => event.effect store)
      store).tree file (records ++ writes.flatMap Write.records) := by
  induction writes generalizing store records with
  | nil => simpa using h
  | cons write writes ih =>
    rw [List.flatMap_cons, ← List.append_assoc]
    exact ih (h.apply write)

/-- A world in which a log is being written. Nothing has been written before somebody slept, and
then all that is due has. -/
structure Watched (file : String) (start : List Record) (writes : List Write) (slept : Prop)
    (w : World σ) (seen : List Record) (left : List Write) : Prop where
  holds : Holds w.tree file seen
  pending : w.pending = left.map (Write.event file)
  ordered : Write.Ordered left
  mem_seen : ∀ record, record ∈ seen ↔ record ∈ start ∨
    slept ∧ ∃ write ∈ writes, write.due ≤ w.clock ∧ record ∈ write.records
  mem_left : ∀ write, write ∈ left ↔ write ∈ writes ∧ (slept → w.clock < write.due)

theorem Watched.noteNow {file : String} {start seen : List Record} {writes left : List Write}
    {slept : Prop} {w : World σ} (h : Watched file start writes slept w seen left) (deed : Deed) :
    Watched file start writes slept (w.noteNow deed) seen left :=
  ⟨h.holds, h.pending, h.ordered, h.mem_seen, h.mem_left⟩

/-- What becomes due in a sleep is written in it, and nothing else. -/
theorem Watched.sleep {file : String} {start seen : List Record} {writes left : List Write}
    {slept : Prop} {w : World σ} (h : Watched file start writes slept w seen left) {span : Nat}
    (hspan : 0 < span) :
    ∃ seen' left', Watched file start writes True (w.sleep span) seen' left' := by
  let due := left.takeWhile fun write => write.due ≤ w.clock + span
  let later := left.dropWhile fun write => write.due ≤ w.clock + span
  have hsleep : w.sleep span = (w.elapse span).settle := if_neg (Nat.pos_iff_ne_zero.mp hspan)
  refine ⟨seen ++ due.flatMap Write.records, later, ?_, ?_, ?_, ?_, ?_⟩
  · have hdue : (w.pending.takeWhile fun event => event.due ≤ w.clock + span) =
        due.map (Write.event file) := by
      rw [h.pending, List.takeWhile_map]
      rfl
    have hall := h.holds.applyAll due
    rw [← hdue] at hall
    rw [hsleep]
    exact hall
  · rw [hsleep]
    change (w.pending.dropWhile fun event => event.due ≤ w.clock + span) = _
    rw [h.pending, List.dropWhile_map]
    rfl
  · exact h.ordered.sublist (List.dropWhile_sublist _)
  · intro record
    rw [World.clock_sleep, List.mem_append, h.mem_seen, List.mem_flatMap]
    constructor
    · rintro ((hstart | ⟨-, write, hwrite, hdue, hrecord⟩) | ⟨write, hwrite, hrecord⟩)
      · exact .inl hstart
      · exact .inr ⟨trivial, write, hwrite, by omega, hrecord⟩
      · obtain ⟨hleft, hdue⟩ := (Write.mem_takeWhile_iff h.ordered).mp hwrite
        exact .inr ⟨trivial, write, ((h.mem_left write).mp hleft).1, hdue, hrecord⟩
    · rintro (hstart | ⟨-, write, hwrite, hdue, hrecord⟩)
      · exact .inl (.inl hstart)
      -- A write has either happened before, or it was left for this sleep.
      · by_cases hbefore : slept ∧ write.due ≤ w.clock
        · exact .inl (.inr ⟨hbefore.1, write, hwrite, hbefore.2, hrecord⟩)
        · have hleft : write ∈ left := (h.mem_left write).mpr ⟨hwrite, fun hslept =>
            Nat.lt_of_not_le fun hle => hbefore ⟨hslept, hle⟩⟩
          exact .inr ⟨write, (Write.mem_takeWhile_iff h.ordered).mpr ⟨hleft, hdue⟩, hrecord⟩
  · intro write
    rw [World.clock_sleep, Write.mem_dropWhile_iff h.ordered, h.mem_left]
    constructor
    · rintro ⟨⟨hwrite, -⟩, hlt⟩
      exact ⟨hwrite, fun _ => hlt⟩
    · rintro ⟨hwrite, hlt⟩
      exact ⟨⟨hwrite, fun _ => by have := hlt trivial; omega⟩, hlt trivial⟩

theorem Watched.readLog {file : String} {start seen : List Record} {writes left : List Write}
    {slept : Prop} {w : World σ} (h : Watched file start writes slept w seen left) :
    (Session.readLog file w).1 = .ok seen := by
  obtain ⟨content, hread, -, hdecodes⟩ := h.holds
  rw [readLog_of_read hread, contentRecords, hdecodes]

/-- Looks that leave nothing but a note all find the log as it is being written. -/
theorem Watched.probeStart {file : String} {start seen : List Record} {writes left : List Write}
    {w : World σ} (h : Watched file start writes (0 < 0) w seen left) {α : Type}
    {probe : World σ → Except Error α × World σ} {deed : Deed}
    (hprobe : ∀ w, (probe w).2 = w.noteNow deed) {accept : α → Bool} {interval timeout n : Nat}
    (hi : 0 < interval) {outcome : Except (PollError Error α) α × World σ}
    (hn : EndsInTime probe accept interval timeout w n outcome) {k : Nat} (hk : k ≤ n) :
    ∃ seen left, Watched file start writes (0 < k)
      (Poll.probeStart probe interval timeout (Clock.now w) w k) seen left := by
  induction k with
  | zero => exact ⟨seen, left, h⟩
  | succ k ih =>
    obtain ⟨seen, left, hbefore⟩ := ih (by omega)
    have hlate := hn.inTime k (by omega)
    rw [probeStart_succ, Poll.round, hprobe]
    rw [waited, probeEnd, hprobe] at hlate
    -- The wait is not over yet, so that the pause has a length.
    have hspan : 0 < min interval (timeout -
        (Clock.now ((Poll.probeStart probe interval timeout (Clock.now w) w k).noteNow deed) -
          Clock.now w)) := by omega
    obtain ⟨seen', left', hafter⟩ := (hbefore.noteNow deed).sleep hspan
    rw [eq_true (Nat.succ_pos k)]
    exact ⟨seen', left', hafter⟩

end Log

namespace CommandLine.Verification

open ContainerCheck.Log

variable (v : Verification)

def Carries (records : List Record) : Prop :=
  ∃ record ∈ records, record.payload = v.payload ∧ record.stream = v.stream

theorem accepts_eq_true_iff (records : List Record) :
    v.accepts records = true ↔ v.Carries records :=
  contains_eq_true_iff _ _ _

def lookTime (config : Config) (limit n : Nat) : Nat :=
  min (n * v.pause config) (Time.seconds limit)

/-- Whether the message is there at look number `n`. What is written at once is not there at the
first look. -/
def Finds (config : Config) (limit : Nat) (start : List Record) (writes : List Write) (n : Nat) :
    Prop :=
  v.Carries start ∨
    0 < n ∧ ∃ write ∈ writes, write.due ≤ v.lookTime config limit n ∧ v.Carries write.records

variable {v}

theorem carries_seen {config : Config} {limit : Nat} {start seen : List Record}
    {writes left : List Write} {n : Nat} {w : World σ}
    (h : Watched v.file start writes (0 < n) w seen left)
    (hclock : w.clock = v.lookTime config limit n) :
    v.Carries seen ↔ v.Finds config limit start writes n := by
  unfold Carries Finds
  simp only [h.mem_seen, hclock]
  constructor
  · rintro ⟨record, hstart | ⟨hn, write, hwrite, hdue, hrecord⟩, hmessage⟩
    · exact .inl ⟨record, hstart, hmessage⟩
    · exact .inr ⟨hn, write, hwrite, hdue, record, hrecord, hmessage⟩
  · rintro (⟨record, hstart, hmessage⟩ | ⟨hn, write, hwrite, hdue, record, hrecord, hmessage⟩)
    · exact ⟨record, .inl hstart, hmessage⟩
    · exact ⟨record, .inr ⟨hn, write, hwrite, hdue, hrecord⟩, hmessage⟩

structure EndsAt (v : Verification) (config : Config) (limit : Nat) (start : List Record)
    (writes : List Write) (n : Nat)
    (outcome : Except (PollError Error (List Record)) (List Record) × World σ) : Prop where
  time : outcome.2.clock = v.lookTime config limit n
  first : ∀ k < n, ¬ v.Finds config limit start writes k
  result : (v.Finds config limit start writes n ∧ ∃ records, outcome.1 = .ok records) ∨
    (¬ v.Finds config limit start writes n ∧ outcome.2.clock = Time.seconds limit ∧
      ∃ last, outcome.1 = .error (.timeout last (Time.seconds limit)) ∧
        Holds outcome.2.tree v.file last)

section

variable {config : Config} {limit : Nat} {start seen : List Record} {writes left : List Write}
  {w : World σ} {probe : World σ → Except Error (List Record) × World σ} {n : Nat}
  {outcome : Except (PollError Error (List Record)) (List Record) × World σ}

/-- Looking takes no time, so each look is at its time. -/
theorem clock_probeStart (hclock : w.clock = 0) (hprobe : probe = Session.readLog v.file)
    (hn : EndsInTime probe v.accepts (v.pause config) (Time.seconds limit) w n outcome) {k : Nat}
    (hk : k ≤ n) :
    (Poll.probeStart probe (v.pause config) (Time.seconds limit) (Clock.now w) w k).clock =
      v.lookTime config limit k := by
  have hinstant := (hn.instant fun k _ => ?_).1 k hk
  · refine hinstant.trans ?_
    change w.clock + _ = _
    rw [hclock, Nat.zero_add, lookTime]
  · rw [probeTime, probeEnd, hprobe]
    exact Nat.sub_self _

/-- What a look sees is the message or not, as it is there by then or not. -/
theorem look_watched (h : Watched v.file start writes (0 < 0) w seen left) (hclock : w.clock = 0)
    (hpause : 0 < v.pause config) (hprobe : probe = Session.readLog v.file)
    (hn : EndsInTime probe v.accepts (v.pause config) (Time.seconds limit) w n outcome) {k : Nat}
    (hk : k ≤ n) : ∃ records,
      Poll.seen probe (v.pause config) (Time.seconds limit) (Clock.now w) w k = .ok records ∧
        (v.accepts records = true ↔ v.Finds config limit start writes k) ∧
        Holds (Poll.probeStart probe (v.pause config) (Time.seconds limit) (Clock.now w) w k).tree
          v.file records := by
  have htime := clock_probeStart hclock hprobe hn hk
  subst hprobe
  obtain ⟨records, later, hwatched⟩ := h.probeStart (fun _ => rfl) hpause hn hk
  refine ⟨records, hwatched.readLog, ?_, hwatched.holds⟩
  rw [accepts_eq_true_iff, carries_seen hwatched htime]

/-- A wait for a message in a log that is being written ends with a look that finds it, or times
out. -/
theorem endsAt_watched (h : Watched v.file start writes (0 < 0) w seen left) (hclock : w.clock = 0)
    (hpause : 0 < v.pause config) (hprobe : probe = Session.readLog v.file)
    (hn : EndsInTime probe v.accepts (v.pause config) (Time.seconds limit) w n outcome) :
    v.EndsAt config limit start writes n outcome := by
  have hend : outcome.2 = (Poll.probeStart probe (v.pause config) (Time.seconds limit)
      (Clock.now w) w n).noteNow (.readLog v.file) := by
    rw [hn.state, probeEnd, hprobe]
    rfl
  have hclock' : outcome.2.clock = v.lookTime config limit n := by
    rw [hend, World.clock_noteNow, clock_probeStart hclock hprobe hn (Nat.le_refl n)]
  refine ⟨hclock', ?_, ?_⟩
  · intro k hk hfinds
    obtain ⟨value, hvalue, hrejected⟩ := hn.rejected k hk
    obtain ⟨records, hrecords, hiff, -⟩ :=
      look_watched h hclock hpause hprobe hn (Nat.le_of_lt hk)
    rw [hvalue] at hrecords
    cases hrecords
    rw [hiff.mpr hfinds] at hrejected
    cases hrejected
  · obtain ⟨records, hrecords, hiff, hholds⟩ :=
      look_watched h hclock hpause hprobe hn (Nat.le_refl n)
    have hverdict := hn.verdict
    rw [hrecords] at hverdict
    generalize hresult : outcome.1 = result at hverdict ⊢
    cases hverdict with
    | accepted _ haccepted => exact .inl ⟨hiff.mp haccepted, records, rfl⟩
    | timedOut _ hrejected hlate =>
      -- No look is later than the limit, so this one is at the limit.
      have hwaited : waited probe (v.pause config) (Time.seconds limit) (Clock.now w) w n =
          outcome.2.clock := by
        rw [waited, ← hn.state]
        change outcome.2.clock - w.clock = _
        rw [hclock, Nat.sub_zero]
      have hle : v.lookTime config limit n ≤ Time.seconds limit := Nat.min_le_right _ _
      have hlimit : outcome.2.clock = Time.seconds limit := by omega
      refine .inr ⟨?_, hlimit, records, ?_, ?_⟩
      · rw [← hiff, hrejected]
        exact Bool.false_ne_true
      · rw [hwaited, hlimit]
      · rw [hend]
        exact hholds

end

/-- A message that is written no later than the limit is there at a look, the one at the limit at
the latest. -/
theorem finds_of_write {config : Config} {limit : Nat} (hlimit : 0 < limit) {start : List Record}
    {writes : List Write} {n : Nat} (hn : v.lookTime config limit n = Time.seconds limit)
    {write : Write} (hwrite : write ∈ writes) (hdue : write.due ≤ Time.seconds limit)
    (hcarries : v.Carries write.records) : v.Finds config limit start writes n := by
  refine .inr ⟨Nat.pos_of_ne_zero ?_, write, hwrite, by rw [hn]; exact hdue, hcarries⟩
  -- The first look is at the beginning, and the limit is later.
  rintro rfl
  simp only [lookTime, Nat.zero_mul, Nat.zero_min, Time.seconds, Time.nanosPerSecond] at hn
  omega

theorem carries_of_finds {config : Config} {limit : Nat} {start : List Record}
    {writes : List Write} {n : Nat} (h : v.Finds config limit start writes n) :
    v.Carries start ∨
      ∃ write ∈ writes, write.due ≤ Time.seconds limit ∧ v.Carries write.records := by
  rcases h with hstart | ⟨-, write, hwrite, hdue, hcarries⟩
  · exact .inl hstart
  · exact .inr ⟨write, hwrite, Nat.le_trans hdue (Nat.min_le_right _ _), hcarries⟩

theorem answer_run {α β : Type} (step : Session σ α) (answer : β) (w : World σ) :
    ((do
      let _ ← (do let _ ← step : Session σ Unit)
      return answer) : Session σ β) w =
      ((step w).1.map fun _ => answer, (step w).2) := by
  simp only [Session.bind_run]
  rcases step w with ⟨result, w'⟩
  cases result with
  | ok value => rfl
  | error error => rfl

/-- A verification that may wait ends as its polling does. -/
theorem run_of_wait {config : Config} {limit : Nat} (hwait : v.wait = some limit) (w : World σ) :
    (Command.verify v).run config w =
      (((pollUntil (Session.readLog v.file) v.accepts (v.pause config) (Time.seconds limit)
          w).1.mapError (PollError.toError v.subject describeSequence)).map fun _ => v.report,
        (pollUntil (Session.readLog v.file) v.accepts (v.pause config) (Time.seconds limit)
          w).2) := by
  obtain ⟨hfst, hsnd⟩ := Session.waitFor_run v.subject describeSequence (Session.readLog v.file)
    v.accepts (v.pause config) (Time.seconds limit) w
  rw [← hfst, ← hsnd, ← answer_run]
  simp only [Command.run, Verification.run, hwait]

end CommandLine.Verification

namespace CommandLine

open ContainerCheck.Log

def worldOfWrites (tree : Tree) (state : σ) (file : String) (writes : List Write) : World σ :=
  (writes.map (Write.event file)).foldl World.schedule (World.start tree state)

theorem watched_worldOfWrites {tree : Tree} {file : String} {start : List Record}
    (hfile : Holds tree file start) (writes : List Write) (state : σ) :
    ∃ left,
      Watched file start writes (0 < 0) (worldOfWrites tree state file writes) start left := by
  have hnone : (World.start tree state).pending = ([] : List Write).map (Write.event file) := rfl
  obtain ⟨left, hpending, hperm, hordered⟩ :=
    Write.pending_schedule file writes hnone List.Pairwise.nil
  refine ⟨left, ?_, hpending, hordered, ?_, ?_⟩
  · change Holds (worldOfWrites tree state file writes).store.tree file start
    rw [worldOfWrites, World.store_schedule]
    exact hfile
  · simp
  · intro write
    rw [hperm.mem_iff, List.append_nil]
    simp

theorem clock_worldOfWrites (tree : Tree) (state : σ) (file : String) (writes : List Write) :
    (worldOfWrites tree state file writes).clock = 0 :=
  World.clock_schedule _ _

/-- How a verification that may wait ends in a log that is being written: it succeeds just if the
message is in the file at the start or is written no later than the limit, and then at the first
look that can find it. Otherwise it times out at the limit, having seen all that is there. -/
structure EndsAsWritten (v : Verification) (config : Config) (limit : Nat) (start : List Record)
    (writes : List Write) (outcome : Except Error String × World σ) : Prop where
  found : outcome.1 = .ok v.report ↔ v.Carries start ∨
    ∃ write ∈ writes, write.due ≤ Time.seconds limit ∧ v.Carries write.records
  firstLook : outcome.1 = .ok v.report → ∃ n, outcome.2.clock = v.lookTime config limit n ∧
    v.Finds config limit start writes n ∧ ∀ k < n, ¬ v.Finds config limit start writes k
  otherwise : outcome.1 ≠ .ok v.report → outcome.2.clock = Time.seconds limit ∧
    ∃ last, Holds outcome.2.tree v.file last ∧
      outcome.1 = .error (.timeout v.subject (Time.seconds limit) (describeSequence last))

theorem Verification.EndsAt.endsAsWritten {v : Verification} {config : Config} {limit : Nat}
    (hlimit : 0 < limit) {start : List Record} {writes : List Write} {n : Nat}
    {polled : Except (PollError Error (List Record)) (List Record) × World σ}
    (h : v.EndsAt config limit start writes n polled) :
    EndsAsWritten v config limit start writes
      ((polled.1.mapError (PollError.toError v.subject describeSequence)).map fun _ => v.report,
        polled.2) := by
  rcases h.result with ⟨hfinds, records, hresult⟩ | ⟨hnot, hlate, last, hresult, hholds⟩
  · rw [hresult]
    refine ⟨iff_of_true rfl (carries_of_finds hfinds), fun _ => ⟨n, h.time, hfinds, h.first⟩, ?_⟩
    exact fun hne => absurd rfl hne
  · rw [hresult]
    refine ⟨iff_of_false (fun hok => nomatch hok) ?_, (fun hok => nomatch hok),
      fun _ => ⟨hlate, last, hholds, rfl⟩⟩
    rintro (hstart | ⟨write, hwrite, hdue, hcarries⟩)
    · exact hnot (.inl hstart)
    · exact hnot (finds_of_write hlimit (h.time.symm.trans hlate) hwrite hdue hcarries)

/-- A verification that may wait finds a message in a log that is being written if it is there in
time. -/
theorem verify_watched (config : Config) {v : Verification} {limit : Nat}
    (hwait : v.wait = some limit) (hlimit : 0 < limit)
    (hpause : Time.milliseconds 1 ≤ v.pause config) {tree : Tree} {start : List Record}
    (hfile : Holds tree v.file start) (writes : List Write) (state : σ) :
    EndsAsWritten v config limit start writes
      ((Command.verify v).run config (worldOfWrites tree state v.file writes)) := by
  have hpos : 0 < v.pause config := Nat.lt_of_lt_of_le (by decide) hpause
  obtain ⟨left, hwatched⟩ := watched_worldOfWrites hfile writes state
  have hclock := clock_worldOfWrites tree state v.file writes
  obtain ⟨n, hn⟩ := pollUntil_endsInTime (Session.readLog v.file) v.accepts (Time.seconds limit)
    (worldOfWrites tree state v.file writes) (fun w => Nat.le_refl w.clock) hpos
  have hends := Verification.endsAt_watched hwatched hclock hpos rfl hn
  rw [Verification.run_of_wait hwait]
  exact hends.endsAsWritten hlimit

def helloVerification : Verification := ⟨"a.log", "hello", .stdout, false, some 1, some 300⟩

def lateHello : Write where
  due := Time.seconds 1
  content := helloLog
  records := [helloRecord]
  whole := by decide +kernel
  decodes := readRecords_helloLog

/-- The last look is at the limit, not before it, and finds what is written at the limit. -/
theorem verify_watched_lateHello :
    helloVerification.wait = some 1 ∧ 0 < 1 ∧
      Time.milliseconds 1 ≤ helloVerification.pause {} ∧
      Holds (worldWithLog []).tree "a.log" [] ∧
      ((Command.verify helloVerification).run {}
        (worldOfWrites (worldWithLog []).tree () "a.log" [lateHello])).1 =
          .ok helloVerification.report := by
  have hpause : Time.milliseconds 1 ≤ helloVerification.pause {} := by decide
  have hfile : Holds (worldWithLog []).tree "a.log" [] :=
    ⟨[], read_worldWithLog [], isWhole_nil, rfl⟩
  have hends := verify_watched {} (v := helloVerification) rfl (by decide) hpause hfile
    [lateHello] ()
  refine ⟨rfl, by decide, hpause, hfile, hends.found.mpr (.inr ⟨lateHello, ?_, ?_, ?_⟩)⟩
  · exact List.mem_singleton_self lateHello
  · exact Nat.le_refl _
  · exact ⟨helloRecord, List.mem_singleton_self _, rfl, rfl⟩

end CommandLine

end ContainerCheck
