import ContainerCheck.Proofs.Holding
import ContainerCheck.Proofs.RunBudgets

namespace ContainerCheck

open ContainerCheck.Cri ContainerCheck.Host ContainerCheck.Poll ContainerCheck.Session

variable {σ α : Type}

namespace Poll

variable {S : Type} [Clock S] {probe : S → Except Error α × S} {accept : α → Bool}
variable {interval timeout start n : Nat} {s : S} {outcome : Except (PollError Error α) α × S}

theorem Ends.concludes (hn : Ends probe accept interval timeout start s n outcome)
    (hprobe : ∀ s, Concludes (failure? (probe s).1)) (condition : String) (describe : α → String) :
    Concludes (failure? (outcome.1.mapError (PollError.toError condition describe))) := by
  have hverdict := hn.verdict
  have hlast := hprobe (probeStart probe interval timeout start s n)
  change Concludes (failure? (seen probe interval timeout start s n)) at hlast
  generalize seen probe interval timeout start s n = sight at hverdict hlast
  generalize outcome.1 = result at hverdict
  cases hverdict with
  | failed error => exact hlast
  | accepted value => exact concludes_none
  | timedOut value => exact nofun

/-- A hold comes to an end as the wait for the opposite does. -/
theorem Ends.concludes_asHold (hn : Ends probe accept interval timeout start s n outcome)
    (hprobe : ∀ s, Concludes (failure? (probe s).1)) (condition : String) (describe : α → String) :
    Concludes (failure? ((asHold start outcome).1.mapError
      (HoldError.toError condition describe))) := by
  have hverdict := hn.verdict
  have hlast := hprobe (probeStart probe interval timeout start s n)
  change Concludes (failure? (seen probe interval timeout start s n)) at hlast
  unfold asHold
  generalize seen probe interval timeout start s n = sight at hverdict hlast
  generalize outcome.1 = result at hverdict
  cases hverdict with
  | failed error => exact hlast
  | accepted value => exact concludes_assertion _
  | timedOut value => exact concludes_none

end Poll

/-- A step that comes to an end and does not turn back the clock, which a wait around it needs. -/
def Finishes : Conduct σ := fun w outcome w' => w.clock ≤ w'.clock ∧ Concludes outcome

theorem finishes_graded : Conduct.Graded fun _ => (Finishes : Conduct σ) where
  rest halike hconcludes := ⟨Nat.le_of_eq halike.clock.symm, hconcludes⟩
  andThen hfirst hnext := ⟨Nat.le_trans hfirst.1 hnext.1, hnext.2⟩
  more _ hfinishes := hfinishes
  alike hfinishes halike := ⟨Nat.le_trans hfinishes.1 (Nat.le_of_eq halike.clock.symm), hfinishes.2⟩

section

variable {probe : World σ → Except Error α × World σ} {accept : α → Bool} {interval : Nat}
  (hprobe : Obeys Finishes probe) (condition : String) (describe : α → String)
include hprobe

theorem Poll.EndsInTime.clock_le {timeout n : Nat} {w : World σ}
    {outcome : Except (PollError Error α) α × World σ}
    (hn : EndsInTime probe accept interval timeout w n outcome) : w.clock ≤ outcome.2.clock := by
  rw [hn.state]
  exact Nat.le_trans (hn.starts n (Nat.le_refl n)).1 (hprobe _).1

/-- A hold leaves the world that the wait for the opposite leaves. -/
theorem Poll.EndsInTime.finishes_asHold {window n : Nat} {w : World σ}
    {outcome : Except (PollError Error α) α × World σ}
    (hn : EndsInTime probe accept interval window w n outcome) :
    Finishes w (failure? ((asHold (Clock.now w) outcome).1.mapError
      (HoldError.toError condition describe))) (asHold (Clock.now w) outcome).2 :=
  ⟨hn.clock_le hprobe, hn.concludes_asHold (fun w => (hprobe w).2) condition describe⟩

variable (accept : α → Bool) (hi : 0 < interval)
include hi

theorem finishes_waitFor (timeout : Nat) :
    Obeys Finishes (waitFor condition describe probe accept interval timeout) := by
  intro w
  obtain ⟨hfst, hsnd⟩ := waitFor_run condition describe probe accept interval timeout w
  obtain ⟨n, hn⟩ := pollUntil_endsInTime probe accept timeout w (fun w => (hprobe w).1) hi
  rw [hfst, hsnd]
  exact ⟨hn.clock_le hprobe, hn.concludes (fun w => (hprobe w).2) condition describe⟩

theorem finishes_hold (window : Nat) :
    Obeys Finishes (hold condition describe probe accept interval window) := by
  intro w
  obtain ⟨hfst, hsnd⟩ := hold_run condition describe probe accept interval window w
  obtain ⟨n, hn⟩ := pollUntil_endsInTime probe (fun value => !accept value) window w
    (fun w => (hprobe w).1) hi
  rw [hfst, hsnd, holdSteady_eq]
  exact hn.finishes_asHold hprobe condition describe

end

theorem Cri.clock_settle (answered : Answered σ α) (span : Nat) (exchange : Exchange)
    (w : World σ) : (answered.settle span exchange w).clock = w.clock + span :=
  congrArg (· + span) (World.clock_schedule answered.events { w with store := answered.store })

theorem Cri.Client.clock_ask_le (client : Client σ) (request : Request) (w : World σ) :
    w.clock ≤ (client.ask request w).2.clock := by
  unfold Client.ask
  rw [clock_settle]
  exact Nat.le_add_right _ _

namespace Check

theorem concludes_runtime (operation : Operation) (message : String) :
    Concludes (some (.runtime operation message)) := nofun

theorem concludes_runtimeResult (operation : Operation) (answer : Except String α) :
    Concludes (failure? (runtimeResult operation answer)) := by
  cases answer with
  | ok value => exact concludes_none
  | error message => exact concludes_runtime _ _

theorem concludes_expectFailure (operation : Operation) (answer : Except String α) :
    Concludes (failure? (expectFailure operation answer)) := by
  cases answer with
  | ok value => exact nofun
  | error message => exact concludes_none

theorem concludes_endingResult (ending : Ending) :
    Concludes (failure? (endingResult ending)) := by
  cases ending with
  | lost => exact concludes_runtime _ _
  | returned result =>
    cases result with
    | ok value => exact concludes_none
    | error message => exact concludes_runtime _ _

theorem concludes_stopResult (id : ContainerId) (timeout took : Nat) (ending : Option Ending) :
    Concludes (failure? (stopResult id timeout took ending).1) := by
  have hlate : Concludes (failure? (stopTimeout id timeout)) := nofun
  cases ending with
  | none => exact hlate
  | some ending =>
    by_cases hearly : took < timeout
    · rw [stopResult, if_pos hearly]
      exact concludes_endingResult ending
    · rw [stopResult, if_neg hearly]
      exact hlate

namespace Harness

variable {h : Harness σ}

theorem finishes_call (request : Request) : Obeys Finishes (h.call request) :=
  fun w => ⟨h.client.clock_ask_le request w, concludes_runtimeResult _ _⟩

theorem finishes_ensureImage (image : Image) : Obeys Finishes (h.ensureImage image) := by
  apply finishes_graded.behindFree (b := 0) (finishes_call _)
  intro status
  cases status with
  | some status => exact finishes_graded.onHost (.pure ())
  | none => exact finishes_graded.beforeHost (a := 0) (finishes_call _) fun _ => .pure ()

/-- All parts of a run come to an end if there is a pause between two probes. -/
theorem budgets_finishes (hstate : 0 < h.config.statePollInterval)
    (hlog : 0 < h.config.logPollInterval) : h.RunBudgets .free fun _ => Finishes where
  toGraded := finishes_graded
  runs _ := finishes_call _
  tell _ hfinishes := ⟨Nat.le_trans hfinishes.1 (h.client.clock_ask_le _ _), hfinishes.2⟩
  ensureImage := finishes_ensureImage
  create _ config := finishes_graded.behindFree (b := 0) (finishes_ensureImage config.image)
    fun _ => finishes_call _
  call _ := finishes_call _
  execFails _ _ w := ⟨h.client.clock_ask_le _ w, concludes_expectFailure _ _⟩
  status _ := finishes_call _
  waitForState _ _ := (finishes_waitFor ((finishes_call _).map _) _ _ _ hstate _).map _
  stop id timeout w := ⟨by
    unfold stopContainer
    rw [clock_settle]
    exact Nat.le_add_right _ _, concludes_stopResult _ _ _ _⟩
  waitForLog path := finishes_waitFor (finishes_graded.onHost (.readLog path)) _ _ _ hlog _
  verifyUnchanged path _ :=
    (finishes_hold ((finishes_graded.onHost (.readLog path)).map _) _ _ _ hlog _).map _

/-- A run comes to an end whatever its runtime does. -/
theorem concludes_run (hstate : 0 < h.config.statePollInterval)
    (hlog : 0 < h.config.logPollInterval) (scenario : Scenario) (w : World σ) :
    Concludes (failure? (h.run scenario w).1) :=
  ((budgets_finishes hstate hlog).run scenario w).2

end Harness

end Check

end ContainerCheck
