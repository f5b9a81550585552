import ContainerCheck.Proofs.Holding
import ContainerCheck.Proofs.Respect
import ContainerCheck.Proofs.WatchedFile

namespace ContainerCheck

open ContainerCheck.Host ContainerCheck.Poll

variable {σ : Type}

namespace World

/-- A file that reads as it does now whatever is still to come. -/
structure KeepsFile (w : World σ) (file : String) (content : Except IoFault (List UInt8)) :
    Prop where
  now : w.tree.read file = content
  later : ∀ event ∈ w.pending, ∀ store, (event.effect store).tree.read file = store.tree.read file

variable {w : World σ} {file : String} {content : Except IoFault (List UInt8)}

theorem KeepsFile.noteNow (h : w.KeepsFile file content) (deed : Deed) :
    (w.noteNow deed).KeepsFile file content :=
  ⟨h.now, h.later⟩

theorem KeepsFile.sleep (h : w.KeepsFile file content) (span : Nat) :
    (w.sleep span).KeepsFile file content := by
  have hrespects : Check.Respecting
      (fun before after => after.tree.read file = before.tree.read file) w none (w.sleep span) := by
    refine Check.respecting_sleep ?_ ?_ w span
    · exact fun _ => rfl
    · exact fun hab hbc => hbc.trans hab
  obtain ⟨hlater, hread⟩ := hrespects h.later
  exact ⟨hread.trans h.now, hlater⟩

theorem KeepsFile.readLog (h : w.KeepsFile file content) :
    Session.readLog file w = (recordsOf file content, w.noteNow (.readLog file)) := by
  rw [← h.now]
  rfl

/-- Neither a probe that leaves nothing but a note nor the pause behind it ends that. -/
theorem KeepsFile.probeStart (h : w.KeepsFile file content) {α : Type}
    {probe : World σ → Except Error α × World σ} {deed : Deed}
    (hprobe : ∀ w, (probe w).2 = w.noteNow deed) (interval timeout start k : Nat) :
    (Poll.probeStart probe interval timeout start w k).KeepsFile file content := by
  induction k with
  | zero => exact h
  | succ k ih =>
    rw [probeStart_succ, Poll.round, hprobe]
    exact (ih.noteNow deed).sleep _

end World

namespace Poll

section

variable {ε α S : Type} [Clock S] {probe : S → Except ε α × S} {accept : α → Bool}
variable {interval timeout start n : Nat} {s : S} {outcome : Except (PollError ε α) α × S}

/-- A first probe that fails ends the wait. -/
theorem Ends.eq_of_failed (hn : Ends probe accept interval timeout start s n outcome) {error : ε}
    (hseen : (probe s).1 = .error error) : outcome = (.error (.probe error), (probe s).2) := by
  have hzero : n = 0 := by
    -- A wait that goes on has seen a value with its first probe.
    by_contra hpos
    obtain ⟨value, hvalue, -⟩ := hn.rejected 0 (Nat.pos_of_ne_zero hpos)
    rw [seen, probeStart_zero, hseen] at hvalue
    cases hvalue
  subst hzero
  have hv := hn.verdict
  rw [seen, probeStart_zero, hseen] at hv
  apply Prod.ext _ hn.state
  generalize outcome.1 = result at hv
  cases hv with
  | failed _ => rfl

/-- A wait whose last probe sees what is not accepted is timed out. -/
theorem Ends.timedOut (hn : Ends probe accept interval timeout start s n outcome) {value : α}
    (hseen : seen probe interval timeout start s n = .ok value) (hrejected : accept value = false) :
    outcome.1 = .error (.timeout value (waited probe interval timeout start s n)) ∧
      timeout ≤ waited probe interval timeout start s n := by
  have hv := hn.verdict
  rw [hseen] at hv
  generalize outcome.1 = result at hv
  cases hv with
  | accepted _ haccepted =>
    rw [hrejected] at haccepted
    cases haccepted
  | timedOut _ _ hlate => exact ⟨rfl, hlate⟩

end

end Poll

namespace CommandLine.Verification

open ContainerCheck.Log

def once (v : Verification) : Verification := { v with wait := none }

def within (v : Verification) (limit : Nat) : Verification := { v with wait := some limit }

/-- How a verification with one look and one with more looks compare, in a world where the file
keeps its content. -/
structure Agree (v : Verification) (limit : Nat) (content : Except IoFault (List UInt8))
    (w : World σ) (once polled : Except Error String × World σ) : Prop where
  /-- They succeed alike, and print the same. -/
  succeeds : ∀ text, once.1 = .ok text ↔ polled.1 = .ok text
  /-- A success takes one look and no sleep. -/
  found : ∀ text, once.1 = .ok text →
    text = v.report ∧ once.2 = w.noteNow (.readLog v.file) ∧ polled = once
  /-- They succeed on a file with the message and on no other. -/
  earned : once.1 = .ok v.report ↔
    ∃ records, recordsOf v.file content = .ok records ∧ v.Carries records
  /-- A file that gives no records is the same failure of the first look. -/
  unreadable : ∀ error, recordsOf v.file content = .error error →
    once = (.error error, w.noteNow (.readLog v.file)) ∧ polled = once
  /-- Without the message, one look is a failed assertion at once and more looks are timed out at
  the limit. -/
  unmatched : ∀ records, recordsOf v.file content = .ok records → ¬ v.Carries records →
    (∃ message, once = (.error (.assertion message), w.noteNow (.readLog v.file))) ∧
      polled.1 = .error (.timeout v.subject (Time.seconds limit) (describeSequence records)) ∧
      polled.2.clock = w.clock + Time.seconds limit

variable {v : Verification} {config : Config} {w : World σ}

theorem verify_run (v : Verification) (config : Config) (w : World σ) :
    (Command.verify v).run config w =
      ((v.run config w).1.map fun _ => v.report, (v.run config w).2) := by
  simp only [Command.run, Session.bind_run]
  rcases v.run config w with ⟨result, w'⟩
  cases result <;> rfl

theorem once_of_error {error : Error} (config : Config)
    (h : recordsOf v.file (w.tree.read v.file) = .error error) :
    (Command.verify v.once).run config w = (.error error, w.noteNow (.readLog v.file)) := by
  have hlook : v.once.run config w = (.error error, w.noteNow (.readLog v.file)) := by
    simp [Verification.run, once, Check.verifyLog, Session.bind_run, Session.readLog,
      Session.inspect, h]
  rw [verify_run, hlook]
  rfl

theorem once_of_ok {records : List Record} (config : Config)
    (h : recordsOf v.file (w.tree.read v.file) = .ok records) :
    (Command.verify v.once).run config w =
      ((Check.requireMessage records v.payload v.stream).map fun _ => v.report,
        w.noteNow (.readLog v.file)) := by
  have hlook : v.once.run config w =
      (Check.requireMessage records v.payload v.stream, w.noteNow (.readLog v.file)) := by
    simp only [Verification.run, once, Check.verifyLog, Session.bind_run, Session.readLog,
      Session.inspect, h]
    rfl
  rw [verify_run, hlook]
  rfl

theorem once_of_carries {records : List Record} (config : Config)
    (h : recordsOf v.file (w.tree.read v.file) = .ok records) (hcarries : v.Carries records) :
    (Command.verify v.once).run config w = (.ok v.report, w.noteNow (.readLog v.file)) := by
  have hcontains : contains records v.payload v.stream = true :=
    (accepts_eq_true_iff v records).mpr hcarries
  rw [once_of_ok config h, Check.requireMessage, if_pos hcontains]
  rfl

theorem once_of_not_carries {records : List Record} (config : Config)
    (h : recordsOf v.file (w.tree.read v.file) = .ok records) (hmissing : ¬ v.Carries records) :
    ∃ message, (Command.verify v.once).run config w =
      (.error (.assertion message), w.noteNow (.readLog v.file)) := by
  have hcontains : ¬ contains records v.payload v.stream = true :=
    fun hfound => hmissing ((accepts_eq_true_iff v records).mp hfound)
  rw [once_of_ok config h, Check.requireMessage, if_neg hcontains]
  exact ⟨_, rfl⟩

theorem within_run (config : Config) (limit : Nat) (w : World σ)
    (hpause : Time.milliseconds 1 ≤ v.pause config) :
    ∃ n outcome, Ends (Session.readLog v.file) v.accepts (v.pause config) (Time.seconds limit)
        (Clock.now w) w n outcome ∧
      (Command.verify (v.within limit)).run config w =
        ((outcome.1.mapError (PollError.toError v.subject describeSequence)).map
          fun _ => v.report, outcome.2) := by
  have hpos : 0 < v.pause config := Nat.lt_of_lt_of_le (by decide) hpause
  have hprobe (w : World σ) : Clock.now w ≤ Clock.now (Session.readLog v.file w).2 :=
    Nat.le_refl w.clock
  obtain ⟨n, hn⟩ := pollUntil_ends hprobe hpos v.accepts (Time.seconds limit) w
  exact ⟨n, _, hn, run_of_wait (v := v.within limit) rfl w⟩

theorem within_of_error {error : Error} (limit : Nat)
    (hpause : Time.milliseconds 1 ≤ v.pause config)
    (h : recordsOf v.file (w.tree.read v.file) = .error error) :
    (Command.verify (v.within limit)).run config w =
      (.error error, w.noteNow (.readLog v.file)) := by
  obtain ⟨n, outcome, hn, hrun⟩ := within_run config limit w hpause
  rw [hrun, hn.eq_of_failed h]
  rfl

theorem within_of_carries {records : List Record} (limit : Nat)
    (hpause : Time.milliseconds 1 ≤ v.pause config)
    (h : recordsOf v.file (w.tree.read v.file) = .ok records) (hcarries : v.Carries records) :
    (Command.verify (v.within limit)).run config w =
      (.ok v.report, w.noteNow (.readLog v.file)) := by
  obtain ⟨n, outcome, hn, hrun⟩ := within_run config limit w hpause
  rw [hrun, hn.eq_of_first h ((accepts_eq_true_iff v records).mpr hcarries)]
  rfl

theorem within_of_not_carries {records : List Record} (limit : Nat)
    (hpause : Time.milliseconds 1 ≤ v.pause config)
    (hkeeps : w.KeepsFile v.file (w.tree.read v.file))
    (h : recordsOf v.file (w.tree.read v.file) = .ok records) (hmissing : ¬ v.Carries records) :
    ((Command.verify (v.within limit)).run config w).1 =
        .error (.timeout v.subject (Time.seconds limit) (describeSequence records)) ∧
      ((Command.verify (v.within limit)).run config w).2.clock = w.clock + Time.seconds limit := by
  obtain ⟨n, outcome, hn, hrun⟩ := within_run config limit w hpause
  -- The file is the same at the last look, so that look sees what the first one did.
  have hnoted (w : World σ) : (Session.readLog v.file w).2 = w.noteNow (.readLog v.file) := rfl
  have hlast := hkeeps.probeStart hnoted (v.pause config) (Time.seconds limit) (Clock.now w) n
  have hseen : seen (Session.readLog v.file) (v.pause config) (Time.seconds limit) (Clock.now w) w
      n = .ok records :=
    (congrArg Prod.fst hlast.readLog).trans h
  have hrejected : v.accepts records = false := by
    rw [Bool.eq_false_iff]
    exact fun hfound => hmissing ((accepts_eq_true_iff v records).mp hfound)
  obtain ⟨hresult, hlate⟩ := hn.timedOut hseen hrejected
  -- A look takes no time, and none begins past the limit.
  have hpos : 0 < v.pause config := Nat.lt_of_lt_of_le (by decide) hpause
  have hprobe (w : World σ) : Clock.now w ≤ Clock.now (Session.readLog v.file w).2 :=
    Nat.le_refl w.clock
  have hbounds := now_probeStart hprobe hpos hn (Nat.le_refl n)
  have hclock : outcome.2.clock = Clock.now
      (Poll.probeStart (Session.readLog v.file) (v.pause config) (Time.seconds limit) (Clock.now w)
        w n) := by
    rw [hn.state]
    exact congrArg (fun look => look.2.clock) hlast.readLog
  have hwaited : waited (Session.readLog v.file) (v.pause config) (Time.seconds limit)
      (Clock.now w) w n = outcome.2.clock - w.clock := by
    rw [hn.state]
    rfl
  have hexact : outcome.2.clock = w.clock + Time.seconds limit := by
    change w.clock ≤ _ ∧ _ ≤ w.clock + _ at hbounds
    omega
  rw [hrun]
  refine ⟨?_, hexact⟩
  rw [hresult, hwaited, hexact, Nat.add_sub_cancel_left]
  rfl

/-- A verification with one look and one with more looks, at least a millisecond apart, agree on a
file that stays as it is. -/
theorem once_agrees_within (v : Verification) (config : Config) (limit : Nat) {w : World σ}
    {content : Except IoFault (List UInt8)} (hkeeps : w.KeepsFile v.file content)
    (hpause : Time.milliseconds 1 ≤ v.pause config) :
    Agree v limit content w ((Command.verify v.once).run config w)
      ((Command.verify (v.within limit)).run config w) := by
  obtain rfl := hkeeps.now
  cases h : recordsOf v.file (w.tree.read v.file) with
  | error error =>
    rw [once_of_error config h, within_of_error limit hpause h]
    exact {
      succeeds := by simp
      found := by simp
      earned := by simp [h]
      unreadable := by simp [h]
      unmatched := by simp [h] }
  | ok records =>
    by_cases hcarries : v.Carries records
    · rw [once_of_carries config h hcarries, within_of_carries limit hpause h hcarries]
      exact {
        succeeds := by simp
        found := by simp [eq_comm]
        earned := by simp [h, hcarries]
        unreadable := by simp [h]
        unmatched := by simp [h, hcarries] }
    · obtain ⟨message, honce⟩ := once_of_not_carries config h hcarries
      obtain ⟨hresult, hclock⟩ := within_of_not_carries limit hpause hkeeps h hcarries
      rw [honce]
      exact {
        succeeds := by simp [hresult]
        found := by simp
        earned := by simp [h, hcarries]
        unreadable := by simp [h]
        unmatched := by simp [h, hresult, hclock] }

def busyWorld : World Nat :=
  (World.start ⟨[(["a.log"], .file helloLog)], []⟩ 0).schedule
    ⟨500000000, fun store => { store with state := store.state + 1 }⟩

def otherStream : Verification := ⟨"a.log", "hello", .stderr, false, none, some 3000⟩

theorem once_agrees_within_otherStream :
    busyWorld.KeepsFile otherStream.file (.ok helloLog) ∧
      Time.milliseconds 1 ≤ otherStream.pause {} ∧
      Agree otherStream 1 (.ok helloLog) busyWorld
        ((Command.verify otherStream.once).run {} busyWorld)
        ((Command.verify (otherStream.within 1)).run {} busyWorld) ∧
      ((Command.verify (otherStream.within 1)).run {} busyWorld).2.clock = Time.seconds 1 := by
  have hkeeps : busyWorld.KeepsFile otherStream.file (.ok helloLog) := by
    refine ⟨by decide +kernel, ?_⟩
    intro event hevent store
    rw [List.mem_singleton.mp hevent]
  have hpause : Time.milliseconds 1 ≤ otherStream.pause {} := by decide
  have hagree := once_agrees_within otherStream {} 1 hkeeps hpause
  have hrecords : recordsOf otherStream.file (.ok helloLog) = .ok [helloRecord] :=
    eq_ok_of_toOption (by decide +kernel)
  have hmissing : ¬ otherStream.Carries [helloRecord] := by
    rw [← accepts_eq_true_iff]
    decide
  refine ⟨hkeeps, hpause, hagree, ?_⟩
  exact (hagree.unmatched [helloRecord] hrecords hmissing).2.2.trans (by decide)

end CommandLine.Verification

end ContainerCheck
