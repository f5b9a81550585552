import ContainerCheck.Proofs.StillFile
import ContainerCheck.Proofs.TimeLimits

namespace ContainerCheck

open ContainerCheck.Host ContainerCheck.Poll

variable {σ : Type}

/-- A wait whose first probe ends it makes no other. -/
theorem Poll.pollUntil_of_done {ε α S : Type} [Clock S] {probe : S → Except ε α × S}
    {accept : α → Bool} {interval timeout : Nat} {s : S} {result : Except (PollError ε α) α}
    (h : afterProbe accept interval timeout (Clock.now (probe s).2 - Clock.now s) (probe s).1 =
      .done result) :
    pollUntil probe accept interval timeout s = (result, (probe s).2) := by
  have hsome : timeout + patience ≠ 0 := by
    have hpos := patience_pos
    omega
  obtain ⟨rounds, hrounds⟩ := Nat.exists_eq_succ_of_ne_zero hsome
  rw [pollUntil, hrounds]
  simp only [pollFrom, h]

namespace CommandLine

open ContainerCheck.Log

/-- A configuration that is loaded has been checked. -/
theorem validate_of_loadConfig {path : Option String} {w w' : World σ} {config : Config}
    (h : loadConfig path w = (.ok config, w')) : config.validate = .ok () := by
  have hfst := congrArg Prod.fst h
  cases path with
  | none =>
    cases hfst
    rfl
  | some path =>
    change configOf path (w.tree.read path) = .ok config at hfst
    unfold configOf at hfst
    split at hfst
    · cases hfst
    · split at hfst
      · cases hfst
      · unfold Config.load at hfst
        split at hfst
        · cases hfst
        · split at hfst
          · cases hfst
          · next hvalid =>
            cases hfst
            exact hvalid

namespace Verification

variable (v : Verification) (config : Config) (limit : Nat)

/-- A verification that comes to an end, with a pause between any two looks at its file, and not
more looks than there are intervals, and one. -/
structure Paced (w : World σ) (outcome : Except Error String × World σ) : Prop where
  concludes : Concludes (failure? outcome.1)
  looks : ∃ looks, w.Noted looks outcome.2 ∧ Check.OnlyReads v.file looks ∧
    (looks.map Note.time).Pairwise (· < ·) ∧
    looks.length ≤ pauses (v.pause config) (Time.seconds limit) + 1

/-- Looks that never end, however many there are, all at the same time. -/
def Spins (w : World σ) : Prop :=
  ∀ rounds, ∃ looks, ∃ w', pollFrom (Session.readLog v.file) v.accepts (v.pause config)
      (Time.seconds limit) w.clock rounds w = (.error .endless, w') ∧
    w.Noted looks w' ∧ Check.OnlyReads v.file looks ∧ looks.length = rounds ∧
    ∀ look ∈ looks, look.time = w.clock

def Decided (w : World σ) : Prop :=
  ∀ records, recordsOf v.file (w.tree.read v.file) = .ok records → v.Carries records

variable {v config limit} {w : World σ}

theorem pause_pos (hvalid : config.validate = .ok ()) (hinterval : v.interval ≠ some 0) :
    0 < v.pause config := by
  unfold pause
  cases h : v.interval with
  | none => exact (Config.intervals_of_validate hvalid).2.1
  | some interval =>
    have hne : interval ≠ 0 := fun hzero => hinterval (hzero ▸ h)
    have hmillis : 0 < Time.milliseconds interval := by
      unfold Time.milliseconds
      omega
    exact hmillis

theorem pause_eq_zero (hinterval : v.interval = some 0) : v.pause config = 0 := by
  simp [pause, hinterval, Time.milliseconds]

section

variable {n : Nat} {outcome : Except (PollError Error (List Record)) (List Record) × World σ}

theorem instantaneous_readLog (file : String) :
    Instantaneous (Session.readLog file : World σ → Except Error (List Record) × World σ) :=
  fun _ => rfl

/-- The looks are at their times, and all but the last are before the limit. -/
theorem clock_look
    (hn : Ends (Session.readLog v.file) v.accepts (v.pause config) (Time.seconds limit)
      (Clock.now w) w n outcome) {k : Nat} (hk : k ≤ n) :
    (Poll.probeStart (Session.readLog v.file) (v.pause config) (Time.seconds limit)
        (Clock.now w) w k).clock = w.clock + v.lookTime config limit k ∧
      (k < n → v.lookTime config limit k < Time.seconds limit) := by
  have htime := hn.now_probe (instantaneous_readLog v.file) hk
  refine ⟨htime, fun hlt => ?_⟩
  have hlate := hn.inTime k hlt
  unfold waited probeEnd at hlate
  rwa [instantaneous_readLog v.file, htime, Nat.add_sub_cancel_left] at hlate

theorem lookTime_lt (hpause : 0 < v.pause config) {i j : Nat} (hij : i < j)
    (hlate : v.lookTime config limit i < Time.seconds limit) :
    v.lookTime config limit i < v.lookTime config limit j := by
  have hmore := Nat.mul_lt_mul_of_pos_right hij hpause
  unfold lookTime at hlate ⊢
  omega

/-- Looks that end are paced if they are not too many. -/
theorem paced_of_ends
    (hn : Ends (Session.readLog v.file) v.accepts (v.pause config) (Time.seconds limit)
      (Clock.now w) w n outcome)
    (hfew : n ≤ pauses (v.pause config) (Time.seconds limit)) :
    Paced v config limit w
      ((outcome.1.mapError (PollError.toError v.subject describeSequence)).map fun _ => v.report,
        outcome.2) := by
  have hnoted (w : World σ) : w.Noted [⟨w.clock, w.store, .readLog v.file⟩]
      (Session.readLog v.file w).2 := .noteNow w _
  refine ⟨?_, _, hn.noted hnoted, ?_, ?_, ?_⟩
  · have hconcludes := hn.concludes (fun w => (Session.OnHost.readLog v.file w).2) v.subject
      describeSequence
    cases hresult : outcome.1.mapError (PollError.toError v.subject describeSequence) with
    | ok records => exact concludes_none
    | error error =>
      rw [hresult] at hconcludes
      exact hconcludes
  · intro note hnote
    obtain ⟨i, -, rfl⟩ := List.mem_map.mp hnote
    rfl
  · rw [List.map_map, List.pairwise_map]
    -- The looks are numbered, and a look that is not the last is followed by a pause.
    refine List.Pairwise.imp_of_mem ?_ List.pairwise_lt_range
    intro i j _ hj hij
    have hlast : j ≤ n := Nat.le_of_lt_succ (List.mem_range.mp hj)
    obtain ⟨hearly, hlate⟩ := clock_look hn (Nat.le_trans (Nat.le_of_lt hij) hlast)
    have hpause : 0 < v.pause config := by
      -- Without a pause there is one look only.
      refine Nat.pos_of_ne_zero fun hzero => ?_
      rw [hzero, pauses, Nat.div_zero] at hfew
      omega
    have hlt := lookTime_lt hpause hij (hlate (Nat.lt_of_lt_of_le hij hlast))
    change World.clock _ < World.clock _
    rw [hearly, (clock_look hn hlast).1]
    omega
  · simpa using hfew

end

theorem paced_of_pause (hwait : v.wait = some limit) (hpause : 0 < v.pause config) :
    Paced v config limit w ((Command.verify v).run config w) := by
  have hinstant := instantaneous_readLog (σ := σ) v.file
  obtain ⟨n, hn⟩ := pollUntil_ends hinstant.mono hpause v.accepts (Time.seconds limit) w
  rw [run_of_wait hwait]
  generalize pollUntil (Session.readLog v.file) v.accepts (v.pause config) (Time.seconds limit) w =
    outcome at hn ⊢
  exact paced_of_ends hn (hn.le_pauses hinstant hpause)

/-- A first look that ends the wait is the only one. -/
theorem paced_of_done (hwait : v.wait = some limit)
    {result : Except (PollError Error (List Record)) (List Record)}
    (hdone : afterProbe v.accepts (v.pause config) (Time.seconds limit) 0
      (recordsOf v.file (w.tree.read v.file)) = .done result) :
    Paced v config limit w ((Command.verify v).run config w) := by
  have hnow : Clock.now (Session.readLog v.file w).2 - Clock.now w = 0 := Nat.sub_self w.clock
  have hfirst : afterProbe v.accepts (v.pause config) (Time.seconds limit)
      (Clock.now (Session.readLog v.file w).2 - Clock.now w) (Session.readLog v.file w).1 =
        .done result := by
    rw [hnow]
    exact hdone
  rw [run_of_wait hwait, pollUntil_of_done hfirst]
  exact paced_of_ends (.zero (verdict_of_done hfirst)) (Nat.zero_le _)

/-- Without a pause a look leaves all as it was, and so does the next one. -/
theorem spins_of_zero (hpause : v.pause config = 0) (hlimit : 0 < limit)
    (hundecided : ¬ v.Decided w) : Spins v config limit w := by
  simp only [Decided, not_forall] at hundecided
  obtain ⟨records, hrecords, hmissing⟩ := hundecided
  have hrejected : v.accepts records = false := by
    rw [Bool.eq_false_iff]
    exact fun hfound => hmissing ((accepts_eq_true_iff v records).mp hfound)
  have hlate : ¬ Time.seconds limit ≤ 0 := by
    unfold Time.seconds Time.nanosPerSecond
    omega
  -- The clock and the file are all that a look depends on.
  suffices hall : ∀ rounds (w' : World σ), w'.clock = w.clock → w'.tree = w.tree →
      ∃ looks w'', pollFrom (Session.readLog v.file) v.accepts (v.pause config)
          (Time.seconds limit) w.clock rounds w' = (.error .endless, w'') ∧
        w'.Noted looks w'' ∧ Check.OnlyReads v.file looks ∧ looks.length = rounds ∧
        ∀ look ∈ looks, look.time = w.clock from fun rounds => hall rounds w rfl rfl
  intro rounds
  induction rounds with
  | zero =>
    intro w' _ _
    exact ⟨[], w', rfl, .nil rfl, List.forall_mem_nil _, rfl, List.forall_mem_nil _⟩
  | succ rounds ih =>
    intro w' hclock htree
    obtain ⟨looks, w'', hpoll, hnoted, hreads, hlength, htimes⟩ :=
      ih (w'.noteNow (.readLog v.file)) hclock htree
    have hlook : Session.readLog v.file w' = (.ok records, w'.noteNow (.readLog v.file)) := by
      rw [← hrecords, ← htree]
      rfl
    have hafter : afterProbe v.accepts (v.pause config) (Time.seconds limit)
        (Clock.now (w'.noteNow (.readLog v.file)) - w.clock) (.ok records) =
          (.pause 0 : Next (Except (PollError Error (List Record)) (List Record))) := by
      have hwaited : Clock.now (w'.noteNow (.readLog v.file)) - w.clock = 0 :=
        (congrArg (· - w.clock) hclock).trans (Nat.sub_self w.clock)
      simp [afterProbe, hrejected, hwaited, hlate, hpause]
    refine ⟨⟨w'.clock, w'.store, .readLog v.file⟩ :: looks, w'', ?_, ?_, ?_, ?_, ?_⟩
    · simp only [pollFrom, hlook, hafter]
      exact hpoll
    · exact (World.Noted.noteNow w' (.readLog v.file)).append hnoted
    · exact List.forall_mem_cons.mpr ⟨rfl, hreads⟩
    · rw [List.length_cons, hlength]
    · exact List.forall_mem_cons.mpr ⟨hclock, htimes⟩

theorem not_paced_of_spins (hwait : v.wait = some limit) (hspins : Spins v config limit w) :
    ¬ Paced v config limit w ((Command.verify v).run config w) := by
  obtain ⟨-, w', hpoll, -⟩ := hspins (Time.seconds limit + patience)
  intro hpaced
  have hconcludes := hpaced.concludes
  change pollUntil _ _ _ _ w = _ at hpoll
  rw [run_of_wait hwait, hpoll] at hconcludes
  exact hconcludes v.subject rfl

theorem run_of_loadConfig {invocation : Invocation} (hcommand : invocation.command = .verify v)
    {start : World σ} (hconfig : loadConfig invocation.config start = (.ok config, w)) :
    invocation.run start = (Command.verify v).run config w := by
  rw [Invocation.run, Session.bind_run, hconfig, hcommand]

/-- Whether the looks of a verification are bound to end: it pauses between them, or needs one
only. -/
def IsBounded (v : Verification) (limit : Nat) (w : World σ) : Prop :=
  v.interval ≠ some 0 ∨ limit = 0 ∨ v.Decided w

theorem done_of_once (h : limit = 0 ∨ v.Decided w) :
    ∃ result, afterProbe v.accepts (v.pause config) (Time.seconds limit) 0
      (recordsOf v.file (w.tree.read v.file)) = .done result := by
  cases hrecords : recordsOf v.file (w.tree.read v.file) with
  | error error => exact ⟨_, rfl⟩
  | ok records =>
    rcases h with rfl | hdecided
    · cases haccepts : v.accepts records <;> simp [afterProbe, haccepts, Time.seconds]
    · have haccepts := (accepts_eq_true_iff v records).mpr (hdecided records hrecords)
      simp [afterProbe, haccepts]

/-- A verification that may wait keeps its pace, unless the arguments set the interval to zero. -/
theorem run_paced_iff {invocation : Invocation} (hcommand : invocation.command = .verify v)
    (hwait : v.wait = some limit) {start : World σ}
    (hconfig : loadConfig invocation.config start = (.ok config, w)) :
    (Paced v config limit w (invocation.run start) ↔ IsBounded v limit w) ∧
      (IsBounded v limit w ∨ Spins v config limit w) := by
  have hvalid := validate_of_loadConfig hconfig
  rw [run_of_loadConfig hcommand hconfig]
  have hpaced (h : IsBounded v limit w) :
      Paced v config limit w ((Command.verify v).run config w) := by
    rcases h with hinterval | honce
    · exact paced_of_pause hwait (pause_pos hvalid hinterval)
    · exact paced_of_done hwait (done_of_once honce).choose_spec
  have hspins (h : ¬ IsBounded v limit w) : Spins v config limit w := by
    obtain ⟨hinterval, hlimit, hundecided⟩ : v.interval = some 0 ∧ 0 < limit ∧ ¬ v.Decided w := by
      simpa [IsBounded, Nat.pos_iff_ne_zero] using h
    exact spins_of_zero (pause_eq_zero hinterval) hlimit hundecided
  refine ⟨⟨fun h => ?_, hpaced⟩, ?_⟩
  · by_contra hunbounded
    exact not_paced_of_spins hwait (hspins hunbounded) h
  · by_cases h : IsBounded v limit w
    · exact .inl h
    · exact .inr (hspins h)

def helloInvocation : Invocation := ⟨none, false, .verify helloVerification⟩

theorem run_paced_hello :
    (readArguments ["verify", "a.log", "-mhello", "--wait=1", "--interval=300"]).toOption =
        some helloInvocation ∧
      helloInvocation.command = .verify helloVerification ∧ helloVerification.wait = some 1 ∧
      loadConfig helloInvocation.config (worldWithLog []) = (.ok {}, worldWithLog []) ∧
      Paced helloVerification {} 1 (worldWithLog []) (helloInvocation.run (worldWithLog [])) := by
  refine ⟨by decide +kernel, rfl, rfl, rfl, ?_⟩
  have hbounded : IsBounded helloVerification 1 (worldWithLog []) := .inl (by decide)
  have hconfig : loadConfig helloInvocation.config (worldWithLog []) = (.ok {}, worldWithLog []) :=
    rfl
  exact (run_paced_iff rfl rfl hconfig).1.mpr hbounded

def hastyVerification : Verification := { helloVerification with interval := some 0 }

def hastyInvocation : Invocation := ⟨none, false, .verify hastyVerification⟩

/-- In a file that stays empty, an interval of zero is accepted and the looks never end. -/
theorem run_hasty_spins :
    (readArguments ["verify", "a.log", "-mhello", "--wait=1", "--interval=0"]).toOption =
        some hastyInvocation ∧
      hastyInvocation.command = .verify hastyVerification ∧ hastyVerification.wait = some 1 ∧
      loadConfig hastyInvocation.config (worldWithLog []) = (.ok {}, worldWithLog []) ∧
      ¬ Paced hastyVerification {} 1 (worldWithLog []) (hastyInvocation.run (worldWithLog [])) ∧
      Spins hastyVerification {} 1 (worldWithLog []) := by
  have hundecided : ¬ hastyVerification.Decided (worldWithLog []) := by
    intro hdecided
    have hnone : recordsOf "a.log" ((worldWithLog []).tree.read "a.log") = .ok [] := rfl
    obtain ⟨record, hrecord, -⟩ := hdecided [] hnone
    cases hrecord
  have hspins : Spins hastyVerification {} 1 (worldWithLog []) :=
    spins_of_zero (pause_eq_zero rfl) (by decide) hundecided
  have hconfig : loadConfig hastyInvocation.config (worldWithLog []) = (.ok {}, worldWithLog []) :=
    rfl
  refine ⟨by decide +kernel, rfl, rfl, hconfig, ?_, hspins⟩
  rw [run_of_loadConfig rfl hconfig]
  exact not_paced_of_spins rfl hspins

end Verification

end CommandLine

end ContainerCheck
