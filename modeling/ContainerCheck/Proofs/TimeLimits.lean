import ContainerCheck.Proofs.MountedPaths
import ContainerCheck.Proofs.Rotation

namespace ContainerCheck

open ContainerCheck.Cri ContainerCheck.Host ContainerCheck.Poll ContainerCheck.Session

variable {σ α β : Type}

namespace Poll

/-- How many pauses there are in a span, the last one cut short if need be. -/
def pauses (interval span : Nat) : Nat := (span + interval - 1) / interval

theorem le_mul_pauses {interval : Nat} (hi : 0 < interval) (span : Nat) :
    span ≤ pauses interval span * interval := by
  have hdiv := Nat.div_add_mod (span + interval - 1) interval
  have hmod := Nat.mod_lt (span + interval - 1) hi
  unfold pauses
  rw [Nat.mul_comm]
  omega

theorem pauses_pos {interval span : Nat} (hi : 0 < interval) (hspan : interval ≤ span) :
    0 < pauses interval span := by
  apply Nat.div_pos _ hi
  omega

section

variable {ε S : Type} [Clock S] {probe : S → Except ε α × S} {accept : α → Bool}
variable {interval timeout start n : Nat} {s : S} {outcome : Except (PollError ε α) α × S}

def Instantaneous (probe : S → Except ε α × S) : Prop :=
  ∀ s, Clock.now (probe s).2 = Clock.now s

theorem Instantaneous.mono (h : Instantaneous probe) (s : S) :
    Clock.now s ≤ Clock.now (probe s).2 := (h s).ge

theorem Instantaneous.probeTime (h : Instantaneous probe) (k : Nat) :
    probeTime probe interval timeout start s k = 0 := by
  unfold Poll.probeTime probeEnd
  rw [h, Nat.sub_self]

variable [LawfulClock S]

theorem Ends.now_probe (hn : Ends probe accept interval timeout (Clock.now s) s n outcome)
    (hprobe : Instantaneous probe) {k : Nat} (hk : k ≤ n) :
    Clock.now (probeStart probe interval timeout (Clock.now s) s k) =
      Clock.now s + min (k * interval) timeout :=
  now_probeStart_of_instant hprobe.mono hn (fun _ _ => hprobe.probeTime _) hk

theorem Ends.le_pauses (hn : Ends probe accept interval timeout (Clock.now s) s n outcome)
    (hprobe : Instantaneous probe) (hi : 0 < interval) : n ≤ pauses interval timeout :=
  probes_le_of_instant hprobe.mono hi hn fun _ _ => hprobe.probeTime _

theorem Ends.now_last (hn : Ends probe accept interval timeout (Clock.now s) s n outcome)
    (hprobe : Instantaneous probe) :
    Clock.now outcome.2 = Clock.now s + min (n * interval) timeout := by
  rw [hn.state, probeEnd, hprobe, hn.now_probe hprobe (Nat.le_refl n)]

/-- A wait that is timed out makes all its probes. -/
theorem Ends.eq_pauses (hn : Ends probe accept interval timeout (Clock.now s) s n outcome)
    (hprobe : Instantaneous probe) (hi : 0 < interval) {value : α} {late : Nat}
    (htimeout : outcome.1 = .error (.timeout value late)) : n = pauses interval timeout := by
  obtain ⟨hlate, hreached⟩ := hn.timeout_eq htimeout
  have hend : Clock.now (probeEnd probe interval timeout (Clock.now s) s n) =
      Clock.now s + min (n * interval) timeout := by
    rw [probeEnd, hprobe, hn.now_probe hprobe (Nat.le_refl n)]
  rw [waited, hend] at hlate
  have hlong : timeout ≤ n * interval := by omega
  apply Nat.le_antisymm (hn.le_pauses hprobe hi)
  unfold pauses
  rw [← Nat.lt_succ_iff, Nat.div_lt_iff_lt_mul hi, Nat.succ_mul]
  omega

end

section

variable {probe : World σ → Except Error α × World σ} {noteOf : World σ → Note σ}
  (hprobe : ∀ w : World σ, w.Noted [noteOf w] (probe w).2)
include hprobe

theorem noted_probeStart (interval timeout start : Nat) (w : World σ) (k : Nat) :
    w.Noted ((List.range k).map fun i => noteOf (probeStart probe interval timeout start w i))
      (probeStart probe interval timeout start w k) := by
  induction k with
  | zero => exact .nil rfl
  | succ k ih =>
    have hround := hprobe (probeStart probe interval timeout start w k)
    rw [List.range_succ, List.map_append, List.map_singleton, probeStart_succ, round]
    exact ih.append (hround.sameNotes (World.notes_sleep _ _))

/-- A wait leaves the notes of its probes. -/
theorem Ends.noted {accept : α → Bool} {interval timeout start n : Nat} {w : World σ}
    {outcome : Except (PollError Error α) α × World σ}
    (hn : Ends probe accept interval timeout start w n outcome) :
    w.Noted ((List.range (n + 1)).map fun i =>
      noteOf (probeStart probe interval timeout start w i)) outcome.2 := by
  rw [List.range_succ, List.map_append, List.map_singleton, hn.state]
  exact (noted_probeStart hprobe interval timeout start w n).append (hprobe _)

/-- A hold that succeeds makes all its probes. -/
theorem Ends.noted_asHold {accept : α → Bool} {interval window n start : Nat} {w : World σ}
    {outcome : Except (PollError Error α) α × World σ}
    (hn : Ends probe accept interval window (Clock.now w) w n outcome)
    (hinstant : Instantaneous probe) (hi : 0 < interval) {value : α}
    (hok : (asHold start outcome).1 = .ok value) :
    w.Noted ((List.range (pauses interval window + 1)).map fun i =>
        noteOf (probeStart probe interval window (Clock.now w) w i)) (asHold start outcome).2 ∧
      ∀ i ≤ pauses interval window,
        (probeStart probe interval window (Clock.now w) w i).clock =
          w.clock + min (i * interval) window := by
  obtain ⟨late, htimeout⟩ := opposite_eq_ok_iff.mp hok
  rw [← hn.eq_pauses hinstant hi htimeout]
  exact ⟨hn.noted hprobe, fun i hle => hn.now_probe hinstant hle⟩

end

end Poll

/-- Whether calls take no time, but for those that stop a container. -/
def Cri.Client.IsPrompt (client : Client σ) : Prop :=
  ∀ request now store, (client.answer request now store).took = 0

theorem Cri.Client.IsPrompt.clock_ask {client : Client σ} (h : client.IsPrompt) (request : Request)
    (w : World σ) : (client.ask request w).2.clock = w.clock := by
  unfold Client.ask
  rw [clock_settle, h, Nat.add_zero]

def Spends (a : Nat) : Conduct σ := fun w _ w' => w.clock ≤ w'.clock ∧ w'.clock ≤ w.clock + a

theorem spends_graded : Conduct.Graded (Spends : Nat → Conduct σ) where
  rest halike _ := ⟨halike.clock.ge, halike.clock.le⟩
  andThen hfirst hnext := by
    obtain ⟨hstart, hend⟩ := hfirst
    obtain ⟨hstart', hend'⟩ := hnext
    refine ⟨?_, ?_⟩
    · omega
    · omega
  more hle hspent := ⟨hspent.1, by have := hspent.2; omega⟩
  alike hspent halike := by
    unfold Spends
    rw [halike.clock]
    exact hspent

theorem spends_of_clock {w w' : World σ} (h : w'.clock = w.clock) (outcome : Option Error) :
    Spends 0 w outcome w' :=
  ⟨h.ge, h.le⟩

theorem instantaneous_of_spends {probe : Session σ α} (h : Obeys (Spends 0) probe) :
    Instantaneous (probe : World σ → Except Error α × World σ) :=
  fun w => Nat.le_antisymm (h w).2 (h w).1

/-- A wait with such a probe is over at its timeout. -/
theorem Poll.Ends.spends {probe : World σ → Except Error α × World σ} {accept : α → Bool}
    {interval timeout n : Nat} {w : World σ} {outcome : Except (PollError Error α) α × World σ}
    (hn : Ends probe accept interval timeout (Clock.now w) w n outcome)
    (hprobe : Instantaneous probe) (ending : Option Error) : Spends timeout w ending outcome.2 := by
  have hlast : outcome.2.clock = w.clock + min (n * interval) timeout := hn.now_last hprobe
  refine ⟨?_, ?_⟩
  · omega
  · omega

/-- A hold leaves the world that the wait for the opposite leaves. -/
theorem Poll.Ends.spends_asHold {probe : World σ → Except Error α × World σ} {accept : α → Bool}
    {interval window n start : Nat} {w : World σ} {outcome : Except (PollError Error α) α × World σ}
    (hn : Ends probe accept interval window (Clock.now w) w n outcome)
    (hprobe : Instantaneous probe) (ending : Option Error) :
    Spends window w ending (asHold start outcome).2 :=
  hn.spends hprobe ending

section

variable {probe : World σ → Except Error α × World σ} (hprobe : Obeys (Spends 0) probe)
  (condition : String) (describe : α → String) (accept : α → Bool) {interval : Nat}
  (hi : 0 < interval)
include hprobe hi

theorem spends_waitFor (timeout : Nat) :
    Obeys (Spends timeout) (waitFor condition describe probe accept interval timeout) := by
  intro w
  have hinstant := instantaneous_of_spends hprobe
  obtain ⟨hfst, hsnd⟩ := waitFor_run condition describe probe accept interval timeout w
  obtain ⟨n, hn⟩ := pollUntil_ends hinstant.mono hi accept timeout w
  rw [hfst, hsnd]
  exact hn.spends hinstant _

/-- A wait leaves the notes of its probes, which are not too many. -/
theorem noted_waitFor {noteOf : World σ → Note σ}
    (hnoted : ∀ w : World σ, w.Noted [noteOf w] (probe w).2) (timeout : Nat) (w : World σ) :
    ∃ n ≤ pauses interval timeout, w.Noted ((List.range (n + 1)).map fun i =>
        noteOf (probeStart probe interval timeout (Clock.now w) w i))
      (waitFor condition describe probe accept interval timeout w).2 := by
  have hinstant := instantaneous_of_spends hprobe
  obtain ⟨n, hn⟩ := pollUntil_ends hinstant.mono hi accept timeout w
  rw [(waitFor_run condition describe probe accept interval timeout w).2]
  exact ⟨n, hn.le_pauses hinstant hi, hn.noted hnoted⟩

theorem spends_hold (window : Nat) :
    Obeys (Spends window) (hold condition describe probe accept interval window) := by
  intro w
  have hinstant := instantaneous_of_spends hprobe
  obtain ⟨hfst, hsnd⟩ := hold_run condition describe probe accept interval window w
  obtain ⟨n, hn⟩ := pollUntil_ends hinstant.mono hi (fun value => !accept value) window w
  rw [hfst, hsnd, holdSteady_eq]
  exact hn.spends_asHold hinstant _

/-- A hold that succeeds leaves the notes of all its probes, at their times. -/
theorem noted_hold {noteOf : World σ → Note σ}
    (hnoted : ∀ w : World σ, w.Noted [noteOf w] (probe w).2) {window : Nat} {w w' : World σ}
    {value : α} (hok : hold condition describe probe accept interval window w = (.ok value, w')) :
    w.Noted ((List.range (pauses interval window + 1)).map fun i =>
        noteOf (probeStart probe interval window (Clock.now w) w i)) w' ∧
      ∀ i ≤ pauses interval window,
        (probeStart probe interval window (Clock.now w) w i).clock =
          w.clock + min (i * interval) window := by
  have hinstant := instantaneous_of_spends hprobe
  obtain ⟨n, hn⟩ := pollUntil_ends hinstant.mono hi (fun value => !accept value) window w
  obtain ⟨hfst, hsnd⟩ := hold_run condition describe probe accept interval window w
  rw [hok] at hfst hsnd
  rw [holdSteady_eq] at hfst hsnd
  rw [show w' = _ from hsnd]
  exact hn.noted_asHold hnoted hinstant hi (eq_ok_of_mapError hfst.symm)

end

theorem Config.intervals_of_validate {c : Config} (h : c.validate = .ok ()) :
    0 < c.statePollInterval ∧ 0 < c.logPollInterval ∧ c.logPollInterval ≤ c.logSteadyWindow := by
  obtain ⟨hstate, hlog, hsteady, -⟩ := Config.validate_eq_ok_iff.mp h
  unfold statePollInterval logPollInterval logSteadyWindow Time.milliseconds
  omega

namespace Check

/-- A stop is waited for until its timeout at most. -/
theorem stopResult_le (id : ContainerId) (timeout took : Nat) (ending : Option Ending) :
    (stopResult id timeout took ending).2 ≤ timeout := by
  cases ending with
  | none => exact Nat.le_refl timeout
  | some ending =>
    by_cases hearly : took < timeout
    · rw [stopResult, if_pos hearly]
      exact Nat.le_of_lt hearly
    · rw [stopResult, if_neg hearly]

namespace Harness

variable {h : Harness σ}

def timePrices (c : Config) : Prices where
  status := 0
  state := c.statePollTimeout
  stop timeout := timeout
  output := c.logPollTimeout
  steady := c.logSteadyWindow

theorem spends_call (hclient : h.client.IsPrompt) (request : Request) :
    Obeys (Spends 0) (h.call request) :=
  fun w => spends_of_clock (hclient.clock_ask request w) _

theorem spends_stopContainer (id : ContainerId) (timeout : Nat) :
    Obeys (Spends timeout) (h.stopContainer id timeout) := by
  intro w
  have hwaited := stopResult_le id timeout (h.client.stop id timeout w.clock w.store).took
    (h.client.stop id timeout w.clock w.store).value
  unfold stopContainer Spends
  rw [clock_settle]
  exact ⟨Nat.le_add_right _ _, Nat.add_le_add_left hwaited _⟩

theorem spends_ensureImage (hclient : h.client.IsPrompt) (image : Image) :
    Obeys (Spends 0) (h.ensureImage image) := by
  apply spends_graded.behindFree (spends_call hclient _)
  intro status
  cases status with
  | some status => exact spends_graded.onHost (.pure ())
  | none => exact spends_graded.beforeHost (spends_call hclient _) fun _ => .pure ()

/-- No part of a run takes more time than its price. -/
theorem budgets_spends (hclient : h.client.IsPrompt) (hvalid : h.config.validate = .ok ()) :
    h.RunBudgets (timePrices h.config) Spends where
  toGraded := spends_graded
  runs _ := spends_call hclient _
  tell _ hspent := by
    unfold Spends Harness.tell
    rw [hclient.clock_ask]
    exact hspent
  ensureImage := spends_ensureImage hclient
  create _ config := spends_graded.behindFree (spends_ensureImage hclient config.image) fun _ =>
    spends_call hclient _
  call _ := spends_call hclient _
  execFails _ _ w := spends_of_clock (hclient.clock_ask _ w) _
  status _ := spends_call hclient _
  waitForState _ _ := (spends_waitFor ((spends_call hclient _).map _) _ _ _
    (Config.intervals_of_validate hvalid).1 _).map _
  stop := spends_stopContainer
  waitForLog path := spends_waitFor (spends_graded.onHost (.readLog path)) _ _ _
    (Config.intervals_of_validate hvalid).2.1 _
  verifyUnchanged path _ := (spends_hold ((spends_graded.onHost (.readLog path)).map _) _ _ _
    (Config.intervals_of_validate hvalid).2.1 _).map _

def asksStatus (call : Call σ) : Bool := call.exchange.operation == .containerStatus

def Asks (a : Nat) : Conduct σ := fun w _ w' =>
  ∃ made, w.Made made w' ∧ made.countP asksStatus ≤ a

theorem asks_graded : Conduct.Graded (Asks : Nat → Conduct σ) where
  rest halike _ := ⟨[], .nil halike.calls, Nat.le_refl _⟩
  andThen hfirst hnext := by
    obtain ⟨made, hmade, hfew⟩ := hfirst
    obtain ⟨more, hmore, hfew'⟩ := hnext
    refine ⟨made ++ more, hmade.append hmore, ?_⟩
    rw [List.countP_append]
    omega
  more hle hasks := by
    obtain ⟨made, hmade, hfew⟩ := hasks
    exact ⟨made, hmade, Nat.le_trans hfew hle⟩
  alike hasks halike := by
    obtain ⟨made, hmade, hfew⟩ := hasks
    exact ⟨made, hmade.sameCalls halike.calls, hfew⟩

/-- A step that does something else. -/
theorem asks_of_passes (scenario : Scenario) {kinds : List Deed.Kind} {step : Session σ α}
    (hstep : Passes scenario kinds step)
    (hkinds : Deed.Kind.call .containerStatus ∉ kinds) : Obeys (Asks 0) step := by
  intro w
  obtain ⟨trace, hnoted, haccount⟩ := hstep w
  refine ⟨_, hnoted.made, ?_⟩
  rw [Nat.le_zero, List.countP_eq_zero]
  intro call hcall hasks
  obtain ⟨note, hnote, hnoteCall⟩ := List.mem_filterMap.mp hcall
  have hkind := haccount.ofKinds note hnote
  rw [Note.deed_of_call? hnoteCall, Deed.kind, beq_iff_eq.mp hasks] at hkind
  exact hkinds hkind

def statusNote (h : Harness σ) (id : ContainerId) (w : World σ) : Note σ :=
  ⟨w.clock, w.store, .call (.asked (.containerStatus id)
    (h.client.ask (.containerStatus id) w).1)⟩

/-- A wait for a state asks for the status of its container, and not too often. -/
theorem made_waitForState (hclient : h.client.IsPrompt) (hi : 0 < h.config.statePollInterval)
    (id : ContainerId) (state : ContainerState) (w : World σ) :
    ∃ made, w.Made made (h.waitForState id state w).2 ∧
      (∀ call ∈ made, ∃ answer, call.exchange = .asked (.containerStatus id) answer) ∧
      made.length ≤ pauses h.config.statePollInterval h.config.statePollTimeout + 1 := by
  have hprobe : Obeys (Spends 0)
      (h.containerStatus id >>= fun status => Pure.pure status.state : Session σ _) :=
    (spends_call hclient _).map _
  have hnoted (w : World σ) : w.Noted [h.statusNote id w]
      ((h.containerStatus id >>= fun status => Pure.pure status.state : Session σ _) w).2 := by
    rw [map_run]
    exact .ask h.client (.containerStatus id) w
  rw [waitForState, map_run_snd]
  obtain ⟨n, hfew, htrace⟩ := noted_waitFor hprobe _ ContainerState.name (· == state) hi hnoted
    h.config.statePollTimeout w
  refine ⟨_, htrace.made, ?_, ?_⟩
  · intro call hcall
    obtain ⟨note, hnote, hnoteCall⟩ := List.mem_filterMap.mp hcall
    obtain ⟨i, -, rfl⟩ := List.mem_map.mp hnote
    exact ⟨_, (Deed.call.inj (Note.deed_of_call? hnoteCall)).symm⟩
  · apply Nat.le_trans (List.length_filterMap_le _ _)
    rw [List.length_map, List.length_range]
    exact Nat.succ_le_succ hfew

def statusPrices (c : Config) : Prices where
  status := 1
  state := pauses c.statePollInterval c.statePollTimeout + 1
  stop _ := 0
  output := 0
  steady := 0

theorem asks_call {request : Request} (hrequest : request.operation ≠ .containerStatus) :
    Obeys (Asks 0) (h.call request) := by
  intro w
  refine ⟨_, .ask h.client request w, ?_⟩
  simpa [asksStatus, Client.callOf, Exchange.operation] using hrequest

theorem asks_status (id : ContainerId) : Obeys (Asks 1) (h.containerStatus id) := by
  intro w
  exact ⟨_, .ask h.client (.containerStatus id) w, List.countP_le_length⟩

theorem operation_of_free {request : Request} (h : request.isFree = true) :
    request.operation ≠ .containerStatus := by
  cases request with
  | containerStatus id => cases h
  | _ => exact nofun

theorem operation_of_sandbox {request : Request} (h : request.ofSandbox = true) :
    request.operation ≠ .containerStatus := by
  cases request with
  | containerStatus id => cases h
  | _ => exact nofun

/-- No part of a run asks more often than its price. -/
theorem budgets_asks (hclient : h.client.IsPrompt) (hi : 0 < h.config.statePollInterval) :
    h.RunBudgets (statusPrices h.config) Asks where
  toGraded := asks_graded
  runs _ := asks_call (operation_of_sandbox rfl)
  tell hsandbox hasks := by
    obtain ⟨made, hmade, hfew⟩ := hasks
    obtain ⟨more, hmore, hnone⟩ := asks_call (h := h) (operation_of_sandbox hsandbox) _
    refine ⟨made ++ more, hmade.append hmore, ?_⟩
    rw [List.countP_append]
    omega
  ensureImage image := asks_of_passes .createContainer (passes_ensureImage image)
    (by decide)
  create fixture config := asks_of_passes .createContainer
    (accounts_createContainer fixture config (p := fun _ _ => True) trivial).passes (by decide)
  call hfree := asks_call (operation_of_free hfree)
  execFails id command := asks_of_passes .execSyncWrongCommand
    (accounts_verifyExecFails id command).passes (by decide)
  status := asks_status
  waitForState id state w := by
    obtain ⟨made, hmade, -, hfew⟩ := made_waitForState hclient hi id state w
    exact ⟨made, hmade, Nat.le_trans List.countP_le_length hfew⟩
  stop id timeout := asks_of_passes .createContainer
    (accounts_stopContainer id timeout).passes (by decide)
  waitForLog path := asks_of_passes .createContainer
    (accounts_waitForLog path).passes (by decide)
  verifyUnchanged path n := asks_of_passes .createContainer
    (accounts_verifyUnchanged (by nofun) n).passes (by decide)

/-- A log file is read at once, after each interval and at the end of a window. -/
structure LooksThrough (path : String) (interval window start : Nat) (looks : List (Note σ)) :
    Prop where
  deeds : OnlyReads path looks
  times : looks.map Note.time = (List.range (pauses interval window + 1)).map fun i =>
    start + min (i * interval) window
  count : looks.length = pauses interval window + 1
  twice : 2 ≤ looks.length
  last : (looks.map Note.time).getLast? = some (start + window)

theorem looksThrough_of_times {path : String} {interval window start : Nat}
    {looks : List (Note σ)} (hi : 0 < interval) (hwindow : interval ≤ window)
    (hdeeds : OnlyReads path looks)
    (htimes : looks.map Note.time = (List.range (pauses interval window + 1)).map fun i =>
      start + min (i * interval) window) : LooksThrough path interval window start looks := by
  have hcount : looks.length = pauses interval window + 1 := by
    have hlength := congrArg List.length htimes
    rwa [List.length_map, List.length_map, List.length_range] at hlength
  have hsome := pauses_pos hi hwindow
  refine ⟨hdeeds, htimes, hcount, ?_, ?_⟩
  · omega
  · rw [htimes, List.range_succ, List.map_append, List.map_singleton, List.getLast?_concat,
      Nat.min_eq_right (le_mul_pauses hi window)]

/-- The check that a log file stays as it is looks at it through its window. -/
theorem looks_of_verifyUnchanged (hvalid : h.config.validate = .ok ()) {path : String} {n : Nat}
    {w w' : World σ} (hok : h.verifyUnchanged path n w = (.ok (), w')) :
    ∃ looks, w.Noted looks w' ∧ LooksThrough path h.config.logPollInterval
      h.config.logSteadyWindow w.clock looks := by
  obtain ⟨-, hi, hwindow⟩ := Config.intervals_of_validate hvalid
  have hprobe : Obeys (Spends 0)
      (Session.readLog path >>= fun records => Pure.pure records.length : Session σ _) :=
    (spends_graded.onHost (.readLog path)).map _
  have hnoted (w : World σ) : w.Noted [⟨w.clock, w.store, .readLog path⟩]
      ((Session.readLog path >>= fun records => Pure.pure records.length : Session σ _) w).2 := by
    rw [map_run_snd]
    exact .noteNow w (.readLog path)
  obtain ⟨count, w₁, hhold, hend⟩ := bind_run_eq_ok hok
  cases hend
  obtain ⟨htrace, htimes⟩ := noted_hold hprobe _ _ _ hi hnoted hhold
  refine ⟨_, htrace, looksThrough_of_times hi hwindow ?_ ?_⟩
  · intro note hnote
    obtain ⟨i, -, rfl⟩ := List.mem_map.mp hnote
    rfl
  · rw [List.map_map]
    apply List.map_congr_left
    intro i hmem
    exact htimes i (Nat.le_of_lt_succ (List.mem_range.mp hmem))

/-- A log file is read once and then looked at through a window, and is not read otherwise. -/
def Watches (h : Harness σ) (path : String) (trace : List (Note σ)) : Prop :=
  ∃ early first looks late, trace = early ++ first :: (looks ++ late) ∧
    first.deed = .readLog path ∧ LooksThrough path h.config.logPollInterval
      h.config.logSteadyWindow first.time looks ∧ Avoids path early ∧ Avoids path late

theorem Watches.around {path : String} {trace before after : List (Note σ)}
    (hwatched : h.Watches path trace) (hbefore : Avoids path before) (hafter : Avoids path after) :
    h.Watches path (before ++ trace ++ after) := by
  obtain ⟨early, first, looks, late, rfl, hfirst, hlooks, hearly, hlate⟩ := hwatched
  refine ⟨before ++ early, first, looks, late ++ after, ?_, hfirst, hlooks, hbefore.append hearly,
    hlate.append hafter⟩
  simp only [List.append_assoc, List.cons_append]

theorem Watches.behind {path : String} {trace before : List (Note σ)}
    (hwatched : h.Watches path trace) (hbefore : Avoids path before) :
    h.Watches path (before ++ trace) := by
  have hnothing : Avoids path ([] : List (Note σ)) := by simp [Avoids]
  have hall := hwatched.around hbefore hnothing
  rwa [List.append_nil] at hall

def WatchesRotated (h : Harness σ) (path : String) (trace : List (Note σ)) : Prop :=
  Shows [.renames path (path ++ rotatedSuffix)] trace ∧ h.Watches (path ++ rotatedSuffix) trace

theorem WatchesRotated.behind {path : String} {trace before : List (Note σ)}
    (hwatched : h.WatchesRotated path trace) (hbefore : Avoids (path ++ rotatedSuffix) before) :
    h.WatchesRotated path (before ++ trace) :=
  ⟨hwatched.1.behind before, hwatched.2.behind hbefore⟩

section

variable {scenario : Scenario}

/-- What is done before a log file is read for the first time. -/
theorem accounts_unread {kinds kinds' : List Deed.Kind} {shown : α → List (Note σ) → Prop}
    {lacks : List (Note σ) → Prop} {path : String} {first : Session σ α}
    {next : α → Session σ Unit} (hfirst : Accounts scenario kinds shown lacks first)
    (hkinds : Deed.Kind.readLog ∉ kinds)
    (hnext : ∀ value, Accounts scenario kinds' (fun _ => h.Watches path) Anything (next value)) :
    Accounts scenario (kinds ++ kinds') (fun _ => h.Watches path) Anything (first >>= next) := by
  apply Accounts.andThen hfirst.withKinds hnext
  intro _ _ trace more hshown hmore
  exact hmore.behind (avoids_of_kinds hshown.1 hkinds path)

theorem accounts_unreadWait {kinds : List Deed.Kind} (path : String)
    {next : List Log.Record → Session σ Unit}
    (hnext : ∀ records, Accounts scenario kinds (fun _ => h.Watches (path ++ rotatedSuffix))
      Anything (next records)) :
    Accounts scenario ([.readLog] ++ kinds) (fun _ => h.Watches (path ++ rotatedSuffix)) Anything
      (h.waitForLog path >>= next) := by
  apply Accounts.andThen (accounts_waitForLog path) hnext
  intro _ _ trace more hshown hmore
  exact hmore.behind (avoids_rotated hshown.2)

theorem accounts_renaming {kinds : List Deed.Kind} (path : String) {next : Unit → Session σ Unit}
    (hnext : ∀ value, Accounts scenario kinds (fun _ => h.Watches (path ++ rotatedSuffix))
      Anything (next value)) :
    Accounts scenario ([.rename] ++ kinds) (fun _ => h.WatchesRotated path) Anything
      (Session.rename path (path ++ rotatedSuffix) >>= next) := by
  apply Accounts.andThen (accounts_rename path (path ++ rotatedSuffix)).withKinds hnext
  intro _ _ trace more hshown hmore
  exact ⟨hshown.2.before more, hmore.behind (avoids_of_kinds hshown.1 (by decide) _)⟩

variable (hvalid : h.config.validate = .ok ())
include hvalid

theorem accounts_watch {path : String}
    (hlog : scenario = .reopenLog → ∃ stem, path = stem ++ rotatedSuffix) :
    Accounts scenario ([.readLog] ++ [.readLog]) (fun _ => h.Watches path) Anything
      (Session.readLog path >>= fun before => h.verifyUnchanged path before.length) := by
  intro w
  obtain ⟨trace, hnoted, haccount⟩ :=
    (accounts_keepsLength (h := h) hlog : Accounts scenario _ _ _ _) w
  refine ⟨trace, hnoted, haccount.ofKinds, haccount.serves, haccount.endsWaits, ?_,
    fun _ _ _ => trivial⟩
  intro value hok
  obtain ⟨records, w₁, hfirst, hheld⟩ := bind_run_eq_ok (Prod.ext hok rfl)
  have hworld : w.noteNow (.readLog path) = w₁ := congrArg Prod.snd hfirst
  subst hworld
  obtain ⟨looks, hlooked, hlooks⟩ := looks_of_verifyUnchanged hvalid hheld
  rw [hnoted.unique ((World.Noted.noteNow w (.readLog path)).append hlooked)]
  refine ⟨[], ⟨w.clock, w.store, .readLog path⟩, looks, [], ?_, rfl, hlooks, by simp [Avoids],
    by simp [Avoids]⟩
  rw [List.append_nil]
  rfl

theorem accounts_watchRotation (id : ContainerId) (path : String) :
    Accounts scenario rotationKinds (fun _ => h.WatchesRotated path) Anything
      (h.checkRotation id path) := by
  have hwatched := fun _ : Unit => accounts_unreadWait path fun _ =>
    (accounts_watch hvalid fun _ => ⟨path, rfl⟩ : Accounts scenario _ _ _ _)
  have hfound := fun _ : Unit => accounts_unread
    (accounts_find path "new container log file should be created")
    (by decide : Deed.Kind.readLog ∉ _) hwatched
  have hreopened := fun _ : Unit => accounts_unread (accounts_reopenLog (h := h) id)
    (by decide : Deed.Kind.readLog ∉ _) hfound
  rw [checkRotation_eq]
  apply Accounts.andThen (accounts_waitForLog path) fun _ => accounts_renaming path hreopened
  intro _ _ trace more hshown hmore
  exact hmore.behind (avoids_rotated hshown.2)

theorem accounts_startAndRotate (id : ContainerId) (path : String) :
    Accounts scenario ([.call .startContainer] ++ rotationKinds) (fun _ => h.WatchesRotated path)
      Anything (h.startContainer id >>= fun _ => h.checkRotation id path) := by
  apply Accounts.andThen (accounts_startContainer id).withKinds fun _ =>
    accounts_watchRotation hvalid id path
  intro _ _ trace more hshown hmore
  exact hmore.behind (avoids_of_kinds hshown.1 (by decide) _)

theorem accounts_watchLog (fixture : Fixture) :
    Accounts scenario (createKinds ++ ([.call .startContainer] ++ rotationKinds))
      (fun _ trace => ∃ path, h.WatchesRotated path trace) Anything
      (h.runIn fixture .reopenLog) := by
  have houtside : Outside createKinds (Anything : List (Note σ) → Prop) :=
    ⟨fun _ _ => trivial, fun _ _ _ _ => trivial⟩
  apply accounts_withLog fixture _ _ houtside _ fun id path =>
    accounts_startAndRotate hvalid id path
  intro id path trace more hkinds _ hmore
  exact ⟨path, hmore.behind (avoids_of_kinds hkinds (by decide) _)⟩

/-- A run that puts a log file aside and succeeds has watched it. -/
theorem watches_run {w : World σ} (hok : (h.run .reopenLog w).1 = .ok ()) :
    ∃ trace path, w.Noted trace (h.run .reopenLog w).2 ∧ h.WatchesRotated path trace := by
  obtain ⟨acquired, hnoted₁, haccount⟩ := passes_runSandboxFor (h := h) .reopenLog w
  unfold run at hok ⊢
  rw [withFixture_run] at hok ⊢
  rcases heq : h.runSandboxFor .reopenLog w with ⟨result, w₁⟩
  rw [heq] at hok hnoted₁ haccount
  cases result with
  | error error => cases hok
  | ok fixture =>
    dsimp only at hok ⊢
    rcases hin : h.runIn fixture .reopenLog w₁ with ⟨result, w₂⟩
    rw [hin] at hok
    cases hok
    obtain ⟨trace, hnoted₂, -, path, hwatched⟩ :=
      (accounts_watchLog hvalid fixture : Accounts .reopenLog _ _ _ _).of_ok hin
    obtain ⟨released, hnoted₃, hkinds, -⟩ := @noted_release σ h .reopenLog fixture w₂
    refine ⟨acquired ++ trace ++ released, path, (hnoted₁.append hnoted₂).append hnoted₃, ?_, ?_⟩
    · exact (hwatched.1.behind acquired).before released
    · exact hwatched.2.around (avoids_of_kinds haccount.ofKinds (by decide) _)
        (avoids_of_kinds hkinds (by decide) _)

end

theorem isPrompt_laggard : Client.laggard.IsPrompt := by
  intro request now store
  cases request <;> rfl

/-- What a run of a scenario may take and ask for at most, and how it watches a log file. -/
structure Limited (h : Harness σ) (scenario : Scenario) (w : World σ) : Prop where
  /-- It comes to an end, well or not. -/
  ends : Concludes (failure? (h.run scenario w).1)
  time : (h.run scenario w).2.clock ≤ w.clock + (h.config.stopContainerTimeout +
    h.config.statePollTimeout + 2 * h.config.logPollTimeout + h.config.logSteadyWindow)
  /-- Not even the whole run asks for a status more often than one wait may. -/
  asks : ∃ made, w.Made made (h.run scenario w).2 ∧ made.countP asksStatus ≤
    pauses h.config.statePollInterval h.config.statePollTimeout + 1
  /-- Each wait for a state asks for the status of its container, and not too often. -/
  waits (id : ContainerId) (state : ContainerState) (start : World σ) :
    ∃ made, start.Made made (h.waitForState id state start).2 ∧
      (∀ call ∈ made, ∃ answer, call.exchange = .asked (.containerStatus id) answer) ∧
      made.length ≤ pauses h.config.statePollInterval h.config.statePollTimeout + 1
  /-- Each check of a log file that succeeds looks at it through the window. -/
  checks (path : String) (length : Nat) (start last : World σ) :
    h.verifyUnchanged path length start = (.ok (), last) → ∃ looks, start.Noted looks last ∧
      LooksThrough path h.config.logPollInterval h.config.logSteadyWindow start.clock looks
  /-- Such a check is the last thing that is heeded of a run that puts a log file aside. -/
  watches : scenario = .reopenLog → (h.run scenario w).1 = .ok () → ∃ trace path,
    w.Noted trace (h.run scenario w).2 ∧ h.WatchesRotated path trace

/-- A valid configuration bounds every run against a client whose calls take no time, whatever the
calls that stop a container do. -/
theorem run_limited (h : Harness σ) (hvalid : h.config.validate = .ok ())
    (hclient : h.client.IsPrompt) (scenario : Scenario) (w : World σ) :
    h.Limited scenario w where
  ends :=
    have hintervals := Config.intervals_of_validate hvalid
    concludes_run hintervals.1 hintervals.2.1 scenario w
  time := by
    have hspent := ((budgets_spends hclient hvalid).run scenario w).2
    have hprice : (timePrices h.config).ofScenario h.config scenario ≤
        h.config.stopContainerTimeout + h.config.statePollTimeout +
          2 * h.config.logPollTimeout + h.config.logSteadyWindow := by
      cases scenario <;> simp only [Prices.ofScenario, timePrices] <;> omega
    omega
  asks := by
    have hi := (Config.intervals_of_validate hvalid).1
    obtain ⟨made, hmade, hfew⟩ := (budgets_asks hclient hi).run scenario w
    have hprice : (statusPrices h.config).ofScenario h.config scenario ≤
        pauses h.config.statePollInterval h.config.statePollTimeout + 1 := by
      cases scenario <;> simp only [Prices.ofScenario, statusPrices] <;> omega
    exact ⟨made, hmade, Nat.le_trans hfew hprice⟩
  waits := made_waitForState hclient (Config.intervals_of_validate hvalid).1
  checks _ _ _ _ := looks_of_verifyUnchanged hvalid
  watches heq hok := by
    subst heq
    exact watches_run hvalid hok

/-- With a window as long as its interval, the old log file is looked at twice. -/
theorem run_limited_laggard :
    let w := World.start ⟨[], []⟩ ()
    laggard.config.validate = .ok () ∧ laggard.client.IsPrompt ∧ laggard.Limited .reopenLog w ∧
      (laggard.run .reopenLog w).1 = .ok () ∧
      pauses laggard.config.logPollInterval laggard.config.logSteadyWindow + 1 = 2 := by
  intro w
  have hvalid : laggard.config.validate = .ok () := rfl
  exact ⟨hvalid, isPrompt_laggard, run_limited laggard hvalid isPrompt_laggard .reopenLog w,
    eq_ok_of_toOption run_laggard.1, by decide⟩

end Harness

end Check

end ContainerCheck
