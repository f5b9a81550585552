import ContainerCheck.Proofs.SandboxCalls

namespace ContainerCheck.Check

open ContainerCheck.Cri ContainerCheck.Session

variable {σ : Type}

/-- What the operation is called that a failed call is reported with. -/
theorem name_of_failure {exchange : Exchange} {operation : Operation} {message : String}
    (hf : exchange.failure? = some (operation, message)) :
    operation.name = match exchange with
      | .asked (.runSandbox _) _ => "RunPodSandbox"
      | .asked (.stopSandbox _) _ => "StopPodSandbox"
      | .asked (.removeSandbox _) _ => "RemovePodSandbox"
      | .asked (.createContainer ..) _ => "CreateContainer"
      | .asked (.startContainer _) _ => "StartContainer"
      | .asked (.removeContainer _) _ => "RemoveContainer"
      | .asked (.containerStatus _) _ => "ContainerStatus"
      | .asked (.listContainers _) _ => "ListContainers"
      | .asked (.execSync ..) _ => "ExecSync"
      | .asked (.reopenLog _) _ => "ReopenContainerLog"
      | .asked (.imageStatus _) _ => "ImageStatus"
      | .asked (.pullImage _) _ => "PullImage"
      | .stopped .. => "StopContainer" := by
  unfold Exchange.failure? at hf
  split at hf
  · next request message =>
    cases hf
    cases request <;> rfl
  · cases hf
    rfl
  · cases hf

def StopsAtFailure (failureOf : Call σ → Option (Operation × String)) (made : List (Call σ))
    (outcome : Option Error) : Prop :=
  (∀ call ∈ made, failureOf call = none) ∨
    ∃ earlier last operation message, made = earlier ++ [last] ∧
      (∀ call ∈ earlier, failureOf call = none) ∧ failureOf last = some (operation, message) ∧
      outcome = some (.runtime operation message)

def FailStop (failureOf : Call σ → Option (Operation × String)) : Conduct σ := fun w outcome w' =>
  ∃ made, w.Made made w' ∧ StopsAtFailure failureOf made outcome

section

variable {failureOf : Call σ → Option (Operation × String)}

theorem StopsAtFailure.clean {made : List (Call σ)} (h : StopsAtFailure failureOf made none) :
    ∀ call ∈ made, failureOf call = none := by
  rcases h with h | ⟨_, _, _, _, _, _, _, houtcome⟩
  · exact h
  · cases houtcome

theorem StopsAtFailure.append {made more : List (Call σ)} {outcome : Option Error}
    (hmade : ∀ call ∈ made, failureOf call = none) (hmore : StopsAtFailure failureOf more outcome) :
    StopsAtFailure failureOf (made ++ more) outcome := by
  rcases hmore with hmore | ⟨earlier, last, operation, message, rfl, hearlier, hlast, houtcome⟩
  · left
    intro call hcall
    rcases List.mem_append.mp hcall with h | h
    · exact hmade call h
    · exact hmore call h
  · right
    refine ⟨made ++ earlier, last, operation, message, (List.append_assoc _ _ _).symm, ?_, hlast,
      houtcome⟩
    intro call hcall
    rcases List.mem_append.mp hcall with h | h
    · exact hmade call h
    · exact hearlier call h

theorem failStop_composes (failureOf : Call σ → Option (Operation × String)) :
    Conduct.Composes (FailStop failureOf) where
  rest w := ⟨[], .nil rfl, .inl (by simp)⟩
  andThen := by
    rintro w w' w'' outcome ⟨made, hmade, hstops⟩ ⟨more, hmore, hstops'⟩
    exact ⟨made ++ more, hmade.append hmore, hstops'.append hstops.clean⟩
  giveUp := by
    rintro w w' error ⟨made, hmade, hstops⟩
    exact ⟨made, hmade, .inl hstops.clean⟩

theorem failStop_of_made {w w' : World σ} {call : Call σ} {outcome : Option Error}
    (hmade : w.Made [call] w')
    (hcall : ∀ operation message, failureOf call = some (operation, message) →
      outcome = some (.runtime operation message)) :
    FailStop failureOf w outcome w' := by
  refine ⟨[call], hmade, ?_⟩
  cases hfailure : failureOf call with
  | none =>
    left
    intro other hother
    rw [List.mem_singleton.mp hother]
    exact hfailure
  | some failure =>
    right
    refine ⟨[], call, failure.1, failure.2, rfl, by simp, hfailure, ?_⟩
    exact hcall failure.1 failure.2 hfailure

end

namespace Harness

variable (h : Harness σ) (scenario : Scenario)

/-- Whether a scenario heeds what a call was answered. -/
def heeds (call : Call σ) : Bool :=
  match call.exchange with
  | .asked (.stopSandbox _) _ => false
  | .asked (.removeSandbox _) _ => false
  | .asked (.execSync ..) _ => scenario ≠ .execSyncWrongCommand
  | .asked .. => true
  | .stopped id timeout _ => (h.client.stop id timeout call.time call.before).took < timeout

def failureOf (call : Call σ) : Option (Operation × String) :=
  if h.heeds scenario call then call.exchange.failure? else none

theorem failureOf_eq_some {call : Call σ} {operation : Operation} {message : String} :
    h.failureOf scenario call = some (operation, message) ↔
      h.heeds scenario call = true ∧ call.exchange.failure? = some (operation, message) := by
  unfold failureOf
  split
  · next hheeds => simp [hheeds]
  · next hheeds => simp [hheeds]

theorem failure_callOf {client : Client σ} {request : Request} {w : World σ}
    {operation : Operation} {message : String}
    (hf : (client.callOf request w).exchange.failure? = some (operation, message)) :
    (client.ask request w).1 = .error message ∧ operation = request.operation := by
  unfold Client.callOf at hf
  cases hanswer : (client.ask request w).1 with
  | ok value =>
    rw [hanswer] at hf
    cases hf
  | error text =>
    rw [hanswer] at hf
    cases hf
    exact ⟨rfl, rfl⟩

theorem call_failStop (request : Request) :
    Obeys (FailStop (h.failureOf scenario)) (h.call request) := by
  intro w
  apply failStop_of_made (.ask h.client request w)
  intro operation message hfailure
  obtain ⟨hanswer, rfl⟩ := failure_callOf ((h.failureOf_eq_some scenario).mp hfailure).2
  simp only [call, hanswer]
  rfl

/-- A stop that is answered in time with a failure fails with it. -/
theorem stopContainer_failStop (id : ContainerId) (timeout : Nat) :
    Obeys (FailStop (h.failureOf scenario)) (h.stopContainer id timeout) := by
  intro w
  apply failStop_of_made (made_stopContainer h id timeout w)
  intro operation message hfailure
  obtain ⟨hheeds, hexchange⟩ := (h.failureOf_eq_some scenario).mp hfailure
  have hintime := of_decide_eq_true hheeds
  simp only [stopCall] at hintime hexchange
  unfold stopContainer
  cases hvalue : (h.client.stop id timeout w.clock w.store).value with
  | none =>
    rw [hvalue] at hexchange
    cases hexchange
  | some ending =>
    rw [hvalue] at hexchange
    simp only [hvalue, stopResult, if_pos hintime]
    cases ending with
    | lost => cases hexchange
    | returned result =>
      cases result with
      | ok value => cases hexchange
      | error text =>
        cases hexchange
        rfl

theorem conducts_failStop : h.ConductsCalls (FailStop (h.failureOf scenario)) where
  toComposes := failStop_composes _
  calls request _ := call_failStop h scenario request
  stops := stopContainer_failStop h scenario
  sameCalls := by
    rintro w w' w'' outcome ⟨made, hmade, hstops⟩ hcalls
    exact ⟨made, hmade.sameCalls hcalls, hstops⟩

/-- The command that must fail is not heeded. -/
theorem verifyExecFails_failStop (id : ContainerId) (command : List String) :
    Obeys (FailStop (h.failureOf .execSyncWrongCommand)) (h.verifyExecFails id command) := by
  intro w
  apply failStop_of_made (.ask h.client (.execSync id command h.config.execSyncTimeout) w)
  intro operation message hfailure
  have hheeds := ((h.failureOf_eq_some _).mp hfailure).1
  cases hheeds

theorem runIn_failStop (fixture : Fixture) :
    Obeys (FailStop (h.failureOf scenario)) (h.runIn fixture scenario) := by
  apply obeys_runIn (conducts_failStop h scenario)
  rintro rfl id command
  exact verifyExecFails_failStop h id command

/-- What a scenario makes of the first failure that it heeds: its result, and no further call but
those that release the sandbox. -/
def EndsAtFirstFailure (made : List (Call σ)) (result : Except Error Unit) : Prop :=
  ∀ before call after operation message, made = before ++ call :: after →
    (∀ earlier ∈ before, h.failureOf scenario earlier = none) →
    h.failureOf scenario call = some (operation, message) →
    result = .error (.runtime operation message) ∧
      ((∃ config, call.exchange = .asked (.runSandbox config) (.error message)) ∧ after = [] ∨
        call.exchange.ofSandbox = false ∧ ∃ first config id, before.head? = some first ∧
          first.exchange = .asked (.runSandbox config) (.ok id) ∧
          Releases id (after.map Call.exchange))

theorem failureOf_runSandbox {call : Call σ} {config : SandboxConfig}
    {answer : Except String SandboxId}
    (hcall : call.exchange = .asked (.runSandbox config) answer) :
    h.failureOf scenario call = call.exchange.failure? := by
  unfold failureOf heeds
  rw [hcall]
  rfl

theorem endsAtFirstFailure_of_refused {call : Call σ} {config : SandboxConfig} {message : String}
    (hcall : call.exchange = .asked (.runSandbox config) (.error message)) :
    h.EndsAtFirstFailure scenario [call] (.error (.runtime .runPodSandbox message)) := by
  intro before other after operation text hsplit _ hfailure
  have hone := List.append_eq_singleton_iff.mp hsplit.symm
  rcases hone with ⟨rfl, hrest⟩ | ⟨_, hrest⟩
  · cases hrest
    rw [h.failureOf_runSandbox scenario hcall, hcall] at hfailure
    cases hfailure
    exact ⟨rfl, .inl ⟨⟨config, hcall⟩, rfl⟩⟩
  · cases hrest

/-- The first failure that is heeded is found in one place only. -/
theorem first_eq {α : Type} {p : α → Prop} {as bs cs ds : List α} {a b : α}
    (heq : as ++ a :: cs = bs ++ b :: ds) (has : ∀ x ∈ as, ¬ p x) (ha : p a)
    (hbs : ∀ x ∈ bs, ¬ p x) (hb : p b) : as = bs ∧ a = b ∧ cs = ds := by
  -- Both lists are walked at once: where one of them ends, the other one must end too.
  induction as generalizing bs with
  | nil =>
    cases bs with
    | nil =>
      cases heq
      exact ⟨rfl, rfl, rfl⟩
    | cons x bs =>
      cases heq
      exact absurd ha (hbs a (by simp))
  | cons x as ih =>
    cases bs with
    | nil =>
      cases heq
      exact absurd hb (has b (by simp))
    | cons y bs =>
      obtain ⟨rfl, htail⟩ := List.cons.inj heq
      obtain ⟨rfl, hrest⟩ := ih htail (fun z hz => has z (by simp [hz]))
        (fun z hz => hbs z (by simp [hz]))
      exact ⟨rfl, hrest⟩

/-- The calls that release a sandbox are not heeded. -/
theorem failureOf_of_releases {id : SandboxId} {released : List (Call σ)}
    (hreleases : Releases id (released.map Call.exchange)) :
    ∀ call ∈ released, h.failureOf scenario call = none := by
  intro call hcall
  obtain ⟨stopped, removed, htrace⟩ := hreleases
  have hexchange := List.mem_map_of_mem (f := Call.exchange) hcall
  rw [htrace] at hexchange
  unfold failureOf heeds
  simp only [List.mem_cons, List.not_mem_nil, or_false] at hexchange
  rcases hexchange with heq | heq
  · rw [heq]
    rfl
  · rw [heq]
    rfl

theorem endsAtFirstFailure_of_ran {ran : Call σ} {middle released : List (Call σ)}
    {config : SandboxConfig} {id : SandboxId} {result : Except Error Unit}
    (hran : ran.exchange = .asked (.runSandbox config) (.ok id))
    (hquiet : ∀ call ∈ middle, call.exchange.ofSandbox = false)
    (hstops : StopsAtFailure (h.failureOf scenario) middle (failure? result))
    (hreleases : Releases id (released.map Call.exchange)) :
    h.EndsAtFirstFailure scenario (ran :: middle ++ released) result := by
  intro before call after operation message hsplit hbefore hfailure
  have hranClean : h.failureOf scenario ran = none := by
    rw [h.failureOf_runSandbox scenario hran, hran]
    rfl
  have hreleased := h.failureOf_of_releases scenario hreleases
  rcases hstops with hclean | ⟨earlier, last, operation', message', rfl, hearlier, hlast, houtcome⟩
  -- No call in the sandbox has failed, and so no call at all.
  · have hmem : call ∈ ran :: middle ++ released := by
      rw [hsplit]
      simp
    have hnone : h.failureOf scenario call = none := by
      simp only [List.cons_append, List.mem_cons, List.mem_append] at hmem
      rcases hmem with rfl | hmem | hmem
      · exact hranClean
      · exact hclean call hmem
      · exact hreleased call hmem
    rw [hnone] at hfailure
    cases hfailure
  -- The last call in the sandbox has failed, so it is the one that is asked for.
  · have heq : (ran :: earlier) ++ last :: released = before ++ call :: after := by
      rw [← hsplit]
      simp
    obtain ⟨rfl, rfl, rfl⟩ := first_eq (p := fun call => h.failureOf scenario call ≠ none) heq
      (by simpa [hranClean] using hearlier) (by simp [hlast]) (by simpa using hbefore)
      (by simp [hfailure])
    rw [hlast] at hfailure
    cases hfailure
    refine ⟨?_, .inr ⟨hquiet last (by simp), ran, config, id, rfl, hran, hreleases⟩⟩
    cases result with
    | ok value => cases houtcome
    | error error =>
      cases houtcome
      rfl

/-- A scenario ends at the first failure that it heeds. -/
theorem run_endsAtFirstFailure (w : World σ) :
    ∃ made, w.Made made (h.run scenario w).2 ∧
      h.EndsAtFirstFailure scenario made (h.run scenario w).1 := by
  have hacquired := acquired_runSandboxFor h scenario w
  unfold run
  rw [withFixture_run]
  rcases heq : h.runSandboxFor scenario w with ⟨acquired, w'⟩
  rw [heq] at hacquired
  cases hacquired with
  | unmade error hmade =>
    refine ⟨[], hmade, ?_⟩
    intro before call after operation message hsplit
    cases before with
    | nil => cases hsplit
    | cons first before => cases hsplit
  | refused config message hmade hcall =>
    exact ⟨_, hmade, h.endsAtFirstFailure_of_refused scenario hcall⟩
  | ran fixture hmade hcall _ =>
    obtain ⟨middle, hmiddle, hstops⟩ := h.runIn_failStop scenario fixture w'
    obtain ⟨middle', hmiddle', hquiet⟩ := h.runIn_quiet fixture scenario w'
    -- Both facts are about the same calls, as a run makes its calls only once.
    obtain rfl := hmiddle.unique hmiddle'
    have hreleased := h.made_release fixture (h.runIn fixture scenario w').2
    refine ⟨_, (hmade.append hmiddle).append hreleased, ?_⟩
    exact h.endsAtFirstFailure_of_ran scenario hcall hquiet hstops (h.releases_calls _ _)

/-- A default container is not created without its image, and the sandbox is released. -/
theorem run_endsAtFirstFailure_unavailable :
    let h : Harness Unit := ⟨.unavailable, {}⟩
    let w := World.start ⟨[], []⟩ ()
    ∃ ran failed stopped removed,
      w.Made [ran, failed, stopped, removed] (h.run .startContainer w).2 ∧
        h.failureOf .startContainer ran = none ∧
        h.failureOf .startContainer failed = some (.imageStatus, "unavailable") ∧
        (h.run .startContainer w).1 = .error (.runtime .imageStatus "unavailable") := by
  intro h w
  obtain ⟨made, hmade, hends⟩ := h.run_endsAtFirstFailure .startContainer w
  refine ⟨_, _, _, _, rfl, rfl, rfl, ?_⟩
  refine (hends [_] _ [_, _] _ _ (hmade.unique rfl) ?_ rfl).1
  intro earlier hearlier
  rw [List.mem_singleton.mp hearlier]
  rfl

end Harness

end ContainerCheck.Check
