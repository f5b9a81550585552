import ContainerCheck.Proofs.ScenarioConduct

namespace ContainerCheck

open ContainerCheck.Cri

variable {σ : Type}

def World.draw (w : World σ) (names : Nat) : World σ := { w with drawn := w.drawn + names }

/-- From one world to the other these calls have been made, the first one first. -/
def World.Made (w : World σ) (made : List (Call σ)) (w' : World σ) : Prop :=
  w'.calls = made.reverse ++ w.calls

namespace World.Made

theorem nil {w w' : World σ} (h : w'.calls = w.calls) : w.Made [] w' := h

theorem unique {w w' : World σ} {made made' : List (Call σ)} (h : w.Made made w')
    (h' : w.Made made' w') : made = made' := by
  have happend : made.reverse ++ w.calls = made'.reverse ++ w.calls := h.symm.trans h'
  exact List.reverse_inj.mp (List.append_cancel_right happend)

theorem append {w w' w'' : World σ} {made more : List (Call σ)} (h : w.Made made w')
    (h' : w'.Made more w'') : w.Made (made ++ more) w'' := by
  unfold World.Made at h h' ⊢
  rw [h', h, List.reverse_append, List.append_assoc]

theorem sameCalls {w w' w'' : World σ} {made : List (Call σ)} (h : w.Made made w')
    (hcalls : w''.calls = w'.calls) : w.Made made w'' := hcalls.trans h

theorem ask (client : Client σ) (request : Request) (w : World σ) :
    w.Made [client.callOf request w] (client.ask request w).2 := calls_ask client request w

end World.Made

/-- A client that runs sandboxes and fails in all else. -/
def Cri.Client.unavailable : Client Unit where
  answer request _ store :=
    match request with
    | .runSandbox _ => { value := .ok ⟨"sandbox"⟩, store := store }
    | _ => { value := .error "unavailable", store := store }
  stop _ _ _ store := { value := none, store := store }

namespace Check

open ContainerCheck.Host ContainerCheck.Session

def Quiet : Conduct σ := fun w _ w' =>
  ∃ made, w.Made made w' ∧ ∀ call ∈ made, call.exchange.ofSandbox = false

theorem quiet_of_made {w w' : World σ} {call : Call σ} (outcome : Option Error)
    (h : w.Made [call] w') (hcall : call.exchange.ofSandbox = false) : Quiet w outcome w' := by
  refine ⟨[call], h, ?_⟩
  intro other hother
  rw [List.mem_singleton.mp hother]
  exact hcall

theorem quiet_composes : Conduct.Composes (Quiet : Conduct σ) where
  rest w := ⟨[], .nil rfl, by simp⟩
  andThen := by
    rintro w w' w'' outcome ⟨made, hmade, hquiet⟩ ⟨more, hmore, hquiet'⟩
    refine ⟨made ++ more, hmade.append hmore, ?_⟩
    intro call hcall
    rcases List.mem_append.mp hcall with h | h
    · exact hquiet call h
    · exact hquiet' call h
  giveUp _ h := h

/-- The calls that release a sandbox: it is stopped and then removed, whatever is answered. -/
def Releases (id : SandboxId) (trace : List Exchange) : Prop :=
  ∃ stopped removed, trace = [.asked (.stopSandbox id) stopped, .asked (.removeSandbox id) removed]

namespace Harness

variable (h : Harness σ)

def stopCall (id : ContainerId) (timeout : Nat) (w : World σ) : Call σ :=
  ⟨w.clock, w.store, .stopped id timeout (h.client.stop id timeout w.clock w.store).value⟩

theorem made_stopContainer (id : ContainerId) (timeout : Nat) (w : World σ) :
    w.Made [h.stopCall id timeout w] (h.stopContainer id timeout w).2 := calls_settle _ _ _ w

theorem conducts_quiet : h.ConductsCalls Quiet where
  toComposes := quiet_composes
  calls request hrequest w := quiet_of_made _ (.ask h.client request w) hrequest
  stops id timeout w := quiet_of_made _ (made_stopContainer h id timeout w) rfl
  sameCalls := by
    rintro w w' w'' outcome ⟨made, hmade, hquiet⟩ hcalls
    exact ⟨made, hmade.sameCalls hcalls, hquiet⟩

theorem verifyExecFails_quiet (id : ContainerId) (command : List String) :
    Obeys Quiet (h.verifyExecFails id command) := by
  intro w
  exact quiet_of_made _ (.ask h.client (.execSync id command h.config.execSyncTimeout) w) rfl

theorem runIn_quiet (fixture : Fixture) (scenario : Scenario) :
    Obeys Quiet (h.runIn fixture scenario) :=
  obeys_runIn h.conducts_quiet (fun _ => verifyExecFails_quiet h) fixture

/-- How a step may run a sandbox: no call is made, or one call, by whose answer the step fails or
gives the sandbox. -/
inductive Acquired (w : World σ) : Except Error Fixture → World σ → Prop
  | unmade {w' : World σ} (error : Error) (hmade : w.Made [] w') : Acquired w (.error error) w'
  | refused {w' : World σ} {call : Call σ} (config : SandboxConfig) (message : String)
    (hmade : w.Made [call] w')
    (hcall : call.exchange = .asked (.runSandbox config) (.error message)) :
    Acquired w (.error (.runtime .runPodSandbox message)) w'
  | ran {w' : World σ} {call : Call σ} (fixture : Fixture) (hmade : w.Made [call] w')
    (hcall : call.exchange = .asked (.runSandbox fixture.config) (.ok fixture.id))
    (hown : fixture.ownDirectory = fixture.config.logDirectory) : Acquired w (.ok fixture) w'

theorem Acquired.after {w w' w'' : World σ} {result : Except Error Fixture}
    (hw : w'.calls = w.calls) (ha : Acquired w' result w'') : Acquired w result w'' := by
  have hstart : w.Made [] w' := .nil hw
  cases ha with
  | unmade error hmade => exact .unmade error (hstart.append hmade)
  | refused config message hmade hcall =>
    exact .refused config message (hstart.append hmade) hcall
  | ran fixture hmade hcall hown => exact .ran fixture (hstart.append hmade) hcall hown

theorem Acquired.before {w w' w'' : World σ} {result : Except Error Fixture}
    (ha : Acquired w result w') (hw : w''.calls = w'.calls) : Acquired w result w'' := by
  cases ha with
  | unmade error hmade => exact .unmade error (hmade.sameCalls hw)
  | refused config message hmade hcall => exact .refused config message (hmade.sameCalls hw) hcall
  | ran fixture hmade hcall hown => exact .ran fixture (hmade.sameCalls hw) hcall hown

def startFixture (stem : String) (directory : Option String) : Session σ Fixture := do
  let config ← h.sandboxConfig stem directory
  let id ← h.call (.runSandbox config)
  return ⟨id, config, directory⟩

theorem runSandbox_eq : h.runSandbox = h.startFixture "create-PodSandbox-for-container-" none := rfl

theorem runSandboxWithLogs_eq : h.runSandboxWithLogs =
    (Session.makeTemporary "podLogTest" >>= fun directory =>
      Session.orDiscard directory
        (h.startFixture "PodSandbox-with-log-directory-" (some directory))) := rfl

theorem sandboxConfig_run (stem : String) (directory : Option String) (w : World σ) :
    ∃ config : SandboxConfig, config.logDirectory = directory ∧
      h.sandboxConfig stem directory w = (.ok config, w.draw 2) :=
  ⟨_, rfl, rfl⟩

theorem call_map_run {α : Type} (request : Request) (f : request.Value → α) (w : World σ) :
    (h.call request >>= fun value => Pure.pure (f value)) w =
      ((runtimeResult request.operation (h.client.ask request w).1).map f,
        (h.client.ask request w).2) :=
  map_run (h.call request) f w

/-- A sandbox is run by one call, after two names have been drawn. -/
theorem startFixture_run (stem : String) (directory : Option String) (w : World σ) :
    ∃ config : SandboxConfig, config.logDirectory = directory ∧
      h.startFixture stem directory w =
        ((runtimeResult .runPodSandbox
            (h.client.ask (.runSandbox config) (w.draw 2)).1).map
            fun id => ⟨id, config, directory⟩,
          (h.client.ask (.runSandbox config) (w.draw 2)).2) := by
  obtain ⟨config, hdirectory, hconfig⟩ := sandboxConfig_run h stem directory w
  refine ⟨config, hdirectory, ?_⟩
  unfold startFixture
  rw [bind_run, hconfig]
  exact call_map_run h (.runSandbox config) _ _

/-- A conduct that running a sandbox keeps to is kept to by what is done to run it. -/
theorem obeys_startFixture {R : Conduct σ} (hR : h.Conducts R)
    (hrun : ∀ config, Obeys R (h.call (.runSandbox config))) (stem : String)
    (directory : Option String) : Obeys R (h.startFixture stem directory) := by
  apply Obeys.bind hR.toComposes
  · apply Obeys.bind hR.toComposes (obeys_uniqueName hR stem)
    intro name
    apply Obeys.bind hR.toComposes (obeys_uniqueName hR "")
    intro uid
    exact Obeys.pure hR.toComposes _
  · intro config
    exact (hrun config).map _

/-- The sandbox that is run is one that the client has given. -/
theorem startFixture_run_eq_ok {stem : String} {directory : Option String} {w w' : World σ}
    {fixture : Fixture} (hrun : h.startFixture stem directory w = (.ok fixture, w')) :
    fixture.ownDirectory = directory ∧ fixture.config.logDirectory = directory ∧
      ∃ config now store, (h.client.answer (.runSandbox config) now store).value =
        .ok fixture.id := by
  obtain ⟨config, hdirectory, heq⟩ := startFixture_run h stem directory w
  rw [heq] at hrun
  have hanswer := congrArg Prod.fst hrun
  dsimp only at hanswer
  cases hvalue : (h.client.ask (.runSandbox config) (w.draw 2)).1 with
  | error message =>
    rw [hvalue] at hanswer
    cases hanswer
  | ok id =>
    rw [hvalue] at hanswer
    cases hanswer
    exact ⟨rfl, hdirectory, config, _, _, hvalue⟩

/-- The call that runs a sandbox names its log directory. -/
theorem logDirectory_of_startFixture {stem : String} {directory : Option String} {w : World σ}
    {call : Call σ} {config : SandboxConfig} {answer : Except String SandboxId}
    (hmade : w.Made [call] (h.startFixture stem directory w).2)
    (hcall : call.exchange = .asked (.runSandbox config) answer) :
    config.logDirectory = directory := by
  obtain ⟨config', hdirectory, hrun⟩ := startFixture_run h stem directory w
  rw [hrun] at hmade
  have hcalls : (w.draw 2).calls = w.calls := rfl
  have hask := (World.Made.nil hcalls).append (.ask h.client (.runSandbox config') (w.draw 2))
  obtain rfl := List.head_eq_of_cons_eq (hmade.unique hask)
  unfold Client.callOf at hcall
  cases hcall
  exact hdirectory

theorem acquired_startFixture (stem : String) (directory : Option String) (w : World σ) :
    Acquired w (h.startFixture stem directory w).1 (h.startFixture stem directory w).2 := by
  obtain ⟨config, hdirectory, hrun⟩ := startFixture_run h stem directory w
  have hmade := World.Made.ask h.client (.runSandbox config) (w.draw 2)
  rw [hrun]
  have hcalls : (w.draw 2).calls = w.calls := rfl
  apply Acquired.after hcalls
  cases hanswer : (h.client.ask (.runSandbox config) (w.draw 2)).1 with
  | error message =>
    refine .refused config message hmade ?_
    rw [Client.callOf, hanswer]
  | ok id =>
    refine .ran ⟨id, config, directory⟩ hmade ?_ hdirectory.symm
    rw [Client.callOf, hanswer]

theorem acquired_runSandbox (w : World σ) :
    Acquired w (h.runSandbox w).1 (h.runSandbox w).2 := by
  rw [runSandbox_eq]
  exact acquired_startFixture h "create-PodSandbox-for-container-" none w

theorem acquired_runSandboxWithLogs (w : World σ) :
    Acquired w (h.runSandboxWithLogs w).1 (h.runSandboxWithLogs w).2 := by
  rw [runSandboxWithLogs_eq, bind_run]
  have hcalls := calls_makeTemporary "podLogTest" w
  split
  · next directory w' heq =>
    rw [heq] at hcalls
    apply Acquired.after hcalls
    have ha := acquired_startFixture h "PodSandbox-with-log-directory-" (some directory) w'
    unfold Session.orDiscard
    split
    · next fixture w'' hstart =>
      rw [hstart] at ha
      exact ha
    · next error w'' hstart =>
      rw [hstart] at ha
      exact ha.before (World.calls_discard w'' directory)
  · next error w' heq =>
    rw [heq] at hcalls
    exact .unmade error (.nil hcalls)

theorem runSandboxFor_eq (scenario : Scenario) :
    h.runSandboxFor scenario = if scenario.hasLogs then h.runSandboxWithLogs else h.runSandbox := by
  cases scenario <;> rfl

theorem acquired_runSandboxFor (scenario : Scenario) (w : World σ) :
    Acquired w (h.runSandboxFor scenario w).1 (h.runSandboxFor scenario w).2 := by
  rw [runSandboxFor_eq]
  split
  · exact acquired_runSandboxWithLogs h w
  · exact acquired_runSandbox h w

/-- A step in a sandbox that is released behind it. -/
theorem withFixture_run {α : Type} (acquire : Session σ Fixture) (body : Fixture → Session σ α)
    (w : World σ) :
    h.withFixture acquire body w =
      match acquire w with
      | (.ok fixture, w') => ((body fixture w').1, h.release fixture (body fixture w').2)
      | (.error error, w') => (.error error, w') := by
  unfold withFixture
  rw [bind_run]
  rcases acquire w with ⟨result, w'⟩
  cases result with
  | ok fixture => rfl
  | error error => rfl

def stopSandboxCall (id : SandboxId) (w : World σ) : Call σ :=
  h.client.callOf (.stopSandbox id) w

def removeSandboxCall (id : SandboxId) (w : World σ) : Call σ :=
  h.client.callOf (.removeSandbox id) (h.tell (.stopSandbox id) w)

theorem calls_release (fixture : Fixture) (w : World σ) :
    (h.release fixture w).calls =
      (h.tell (.removeSandbox fixture.id) (h.tell (.stopSandbox fixture.id) w)).calls := by
  unfold release
  cases fixture.ownDirectory with
  | none => rfl
  | some directory => exact World.calls_discard _ directory

theorem releases_calls (id : SandboxId) (w : World σ) :
    Releases id ([h.stopSandboxCall id w, h.removeSandboxCall id w].map Call.exchange) :=
  ⟨_, _, rfl⟩

theorem made_release (fixture : Fixture) (w : World σ) :
    w.Made [h.stopSandboxCall fixture.id w, h.removeSandboxCall fixture.id w]
      (h.release fixture w) := by
  have hstop := World.Made.ask h.client (.stopSandbox fixture.id) w
  have hremove := World.Made.ask h.client (.removeSandbox fixture.id)
    (h.tell (.stopSandbox fixture.id) w)
  exact (hstop.append hremove).sameCalls (calls_release h fixture w)

end Harness

end Check

end ContainerCheck
