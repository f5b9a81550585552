import ContainerCheck.Proofs.BenchLogs

namespace ContainerCheck

open ContainerCheck.Cri ContainerCheck.Check

variable {σ : Type}

def Cri.Exchange.tearsDown : Exchange → Bool
  | asked (.stopSandbox _) _ => true
  | asked (.removeSandbox _) _ => true
  | _ => false

/-- A client that answers as another one when a sandbox is stopped or removed. -/
def Cri.Client.withTeardownOf (client other : Client σ) : Client σ where
  answer request now store :=
    match request with
    | .stopSandbox id => other.answer (.stopSandbox id) now store
    | .removeSandbox id => other.answer (.removeSandbox id) now store
    | request => client.answer request now store
  stop := client.stop

namespace Check

open ContainerCheck.Host ContainerCheck.Session

/-- The calls of a run of one sandbox: none, one that is refused, or one that runs the sandbox, with
those that release it at the end. -/
inductive Lifetime : List Exchange → Prop
  | unmade : Lifetime []
  | refused (config : SandboxConfig) (message : String) :
    Lifetime [.asked (.runSandbox config) (.error message)]
  | ran (config : SandboxConfig) {id : SandboxId} {middle released : List Exchange}
    (hquiet : ∀ exchange ∈ middle, exchange.ofSandbox = false) (hreleased : Releases id released) :
    Lifetime (.asked (.runSandbox config) (.ok id) :: middle ++ released)

/-- The log directory that a sandbox is run with is there whenever it is stopped or removed, and is
gone in the end. -/
def LogsOutlive (made : List (Call σ)) (w : World σ) : Prop :=
  ∀ call ∈ made, ∀ config answer directory, call.exchange = .asked (.runSandbox config) answer →
    config.logDirectory = some directory →
      (∀ other ∈ made, other.exchange.tearsDown = true →
        other.before.tree.exists? directory = .ok true) ∧
        w.tree.exists? directory = .ok false

theorem logsOutlive_nil (w : World σ) : LogsOutlive [] w := by
  intro call hmem
  cases hmem

theorem tearsDown_of_quiet {exchange : Exchange} (h : exchange.ofSandbox = false) :
    exchange.tearsDown = false := by
  unfold Exchange.tearsDown
  split
  · cases h
  · cases h
  · rfl

section

variable {ran : Call σ} {middle released : List (Call σ)} {id : SandboxId} {config : SandboxConfig}
  {answer : Except String SandboxId}
  (hquiet : ∀ call ∈ middle, call.exchange.ofSandbox = false)

include hquiet

/-- In the calls of a run there is one that runs a sandbox. -/
theorem eq_ran (hreleased : Releases id (released.map Call.exchange)) {call : Call σ}
    (hmem : call ∈ ran :: middle ++ released)
    (hcall : call.exchange = .asked (.runSandbox config) answer) : call = ran := by
  simp only [List.cons_append, List.mem_cons, List.mem_append] at hmem
  rcases hmem with heq | hmem | hmem
  · exact heq
  · have hnone := hquiet call hmem
    rw [hcall] at hnone
    cases hnone
  · obtain ⟨stopped, removed, htrace⟩ := hreleased
    have hexchange := List.mem_map_of_mem (f := Call.exchange) hmem
    rw [htrace, hcall] at hexchange
    simp at hexchange

theorem mem_released (hran : ran.exchange = .asked (.runSandbox config) answer) {call : Call σ}
    (hmem : call ∈ ran :: middle ++ released) (hcall : call.exchange.tearsDown = true) :
    call ∈ released := by
  simp only [List.cons_append, List.mem_cons, List.mem_append] at hmem
  rcases hmem with rfl | hmem | hmem
  · rw [hran] at hcall
    cases hcall
  · rw [tearsDown_of_quiet (hquiet call hmem)] at hcall
    cases hcall
  · exact hmem

end

namespace Harness

variable (h : Harness σ)

theorem run_lifetime (scenario : Scenario) (w : World σ) :
    ∃ made, w.Made made (h.run scenario w).2 ∧ Lifetime (made.map Call.exchange) := by
  have hacquired := acquired_runSandboxFor h scenario w
  unfold run
  rw [withFixture_run]
  rcases heq : h.runSandboxFor scenario w with ⟨acquired, w'⟩
  rw [heq] at hacquired
  cases hacquired with
  | unmade error hmade => exact ⟨[], hmade, .unmade⟩
  | refused config message hmade hcall =>
    refine ⟨_, hmade, ?_⟩
    rw [List.map_singleton, hcall]
    exact .refused config message
  | ran fixture hmade hcall hown =>
    obtain ⟨middle, hmiddle, hquiet⟩ := h.runIn_quiet fixture scenario w'
    have hreleased := h.made_release fixture (h.runIn fixture scenario w').2
    refine ⟨_, (hmade.append hmiddle).append hreleased, ?_⟩
    rw [List.map_append, List.map_append, List.map_singleton, hcall]
    refine .ran fixture.config ?_ (h.releases_calls fixture.id _)
    intro exchange hexchange
    obtain ⟨call, hmem, rfl⟩ := List.mem_map.mp hexchange
    exact hquiet call hmem

/-- A scenario without logs runs a sandbox without a log directory. -/
theorem logsOutlive_of_not_hasLogs {scenario : Scenario} (hlogs : scenario.hasLogs = false)
    (w : World σ) :
    ∃ made, w.Made made (h.run scenario w).2 ∧ LogsOutlive made (h.run scenario w).2 := by
  have hplain : h.runSandboxFor scenario =
      h.startFixture "create-PodSandbox-for-container-" none := by
    rw [runSandboxFor_eq, hlogs, ← runSandbox_eq]
    rfl
  have hacquired := acquired_startFixture h "create-PodSandbox-for-container-" none w
  unfold run
  rw [withFixture_run, hplain]
  rcases heq : h.startFixture "create-PodSandbox-for-container-" none w with ⟨acquired, w'⟩
  rw [heq] at hacquired
  have hnone : ∀ call config answer, w.Made [call] w' →
      call.exchange = .asked (.runSandbox config) answer → config.logDirectory = none := by
    intro call config answer hmade hcall
    have hstart : w.Made [call]
        (h.startFixture "create-PodSandbox-for-container-" none w).2 := by
      rw [heq]
      exact hmade
    exact logDirectory_of_startFixture h hstart hcall
  cases hacquired with
  | unmade error hmade => exact ⟨[], hmade, logsOutlive_nil _⟩
  | refused config message hmade _ =>
    refine ⟨_, hmade, ?_⟩
    intro call hmem config answer directory hcall hdirectory
    obtain rfl := List.mem_singleton.mp hmem
    rw [hnone _ config answer hmade hcall] at hdirectory
    cases hdirectory
  | ran fixture hmade _ _ =>
    obtain ⟨middle, hmiddle, hquiet⟩ := h.runIn_quiet fixture scenario w'
    have hreleased := h.made_release fixture (h.runIn fixture scenario w').2
    refine ⟨_, (hmade.append hmiddle).append hreleased, ?_⟩
    intro call hmem config answer directory hcall hdirectory
    obtain rfl := eq_ran hquiet (h.releases_calls fixture.id _) hmem hcall
    rw [hnone _ config answer hmade hcall] at hdirectory
    cases hdirectory

variable {h}

/-- The log directory of a scenario stands until its sandbox is released. -/
theorem logsOutlive_of_hasLogs (hclient : h.client.SparesLogs) {scenario : Scenario}
    (hlogs : scenario.hasLogs = true) {w : World σ} (hcalm : w.Calm) :
    ∃ made, w.Made made (h.run scenario w).2 ∧ LogsOutlive made (h.run scenario w).2 := by
  obtain ⟨hacquired, hcalm', _⟩ := runSandboxWithLogs_logs hclient hcalm
  unfold run
  rw [withFixture_run, runSandboxFor_eq, if_pos hlogs]
  rcases heq : h.runSandboxWithLogs w with ⟨acquired, w'⟩
  rw [heq] at hacquired hcalm'
  cases hacquired with
  | unmade error hmade => exact ⟨[], hmade, logsOutlive_nil _⟩
  | refused message hmade hexchange hdirectory hgone =>
    refine ⟨_, hmade, ?_⟩
    intro call hmem config answer directory hcall hnamed
    obtain rfl := List.mem_singleton.mp hmem
    rw [hexchange] at hcall
    cases hcall
    rw [hdirectory] at hnamed
    cases hnamed
    refine ⟨?_, hgone⟩
    intro other hother htears
    obtain rfl := List.mem_singleton.mp hother
    rw [hexchange] at htears
    cases htears
  | ran fixture hmade hexchange hdirectory hown hnew hlog =>
    obtain ⟨middle, hmiddle, hquiet⟩ := h.runIn_quiet fixture scenario w'
    obtain ⟨hcalm'', hspares⟩ :=
      obeys_runIn_of_hasLogs (conducts_keepsLogs hclient) hlogs fixture w' hcalm'
    obtain ⟨hstands, _, hgone, _⟩ := release_log hclient hown hcalm'' (hlog.spares hspares)
    have hreleased := h.made_release fixture (h.runIn fixture scenario w').2
    refine ⟨_, (hmade.append hmiddle).append hreleased, ?_⟩
    intro call hmem config answer directory hcall hnamed
    obtain rfl := eq_ran hquiet (h.releases_calls fixture.id _) hmem hcall
    rw [hexchange] at hcall
    cases hcall
    rw [hdirectory] at hnamed
    cases hnamed
    refine ⟨?_, hgone⟩
    intro other hother htears
    exact hstands other (mem_released hquiet hexchange hother htears)

theorem run_logsOutlive (hclient : h.client.SparesLogs) (scenario : Scenario) {w : World σ}
    (hcalm : w.Calm) :
    ∃ made, w.Made made (h.run scenario w).2 ∧ LogsOutlive made (h.run scenario w).2 := by
  cases hlogs : scenario.hasLogs with
  | true => exact logsOutlive_of_hasLogs hclient hlogs hcalm
  | false => exact logsOutlive_of_not_hasLogs h hlogs w

/-- Dropping a sandbox of a session stops and removes it while its log directory stands. -/
theorem release_session (hclient : h.client.SparesLogs) {bench : Bench σ}
    (hbench : bench.LogsStand) {index : Nat} {fixture : Fixture}
    (hlive : bench.fixture? index = some fixture) {directory : String}
    (hown : fixture.ownDirectory = some directory) :
    ∃ made, bench.world.Made made (bench.perform h (.release index)).2.world ∧
      Releases fixture.id (made.map Call.exchange) ∧
      (∀ call ∈ made, call.before.tree.exists? directory = .ok true) ∧
      (bench.perform h (.release index)).2.world.tree.exists? directory = .ok false := by
  have hlog := hbench.stands index directory
    ⟨fixture, Bench.fixture?_eq_some.mp hlive, hown⟩
  obtain ⟨hstands, _, hgone, _⟩ := release_log hclient hown hbench.calm hlog
  rw [Bench.perform]
  unfold Bench.release
  rw [hlive]
  exact ⟨_, h.made_release fixture bench.world, h.releases_calls fixture.id bench.world, hstands,
    hgone⟩

/-- A sandbox of a session that is refused leaves no log directory behind. -/
theorem refused_session (hclient : h.client.SparesLogs) {bench : Bench σ}
    (hbench : bench.LogsStand) {action : Action} (haction : action.runs = true) {call : Call σ}
    (hmade : bench.world.Made [call] (bench.perform h action).2.world) {config : SandboxConfig}
    {message directory : String}
    (hcall : call.exchange = .asked (.runSandbox config) (.error message))
    (hdirectory : config.logDirectory = some directory) :
    (bench.perform h action).2.world.tree.exists? directory = .ok false := by
  cases action with
  | runSandbox =>
    rw [Bench.perform, Bench.world_acquire, runSandbox_eq] at hmade
    rw [logDirectory_of_startFixture h hmade hcall] at hdirectory
    cases hdirectory
  | runSandboxWithLogs =>
    rw [Bench.perform, Bench.world_acquire] at hmade ⊢
    exact (runSandboxWithLogs_logs hclient hbench.calm).1.gone hmade hcall hdirectory
  | _ => cases haction

variable (h)

def withTeardownOf (other : Client σ) : Harness σ :=
  { h with client := h.client.withTeardownOf other }

theorem runSandboxFor_withTeardownOf (other : Client σ) (scenario : Scenario) :
    (h.withTeardownOf other).runSandboxFor scenario = h.runSandboxFor scenario := by
  cases scenario <;> rfl

theorem runIn_withTeardownOf (other : Client σ) (fixture : Fixture) (scenario : Scenario) :
    (h.withTeardownOf other).runIn fixture scenario = h.runIn fixture scenario := by
  cases scenario <;> rfl

/-- What a scenario gives does not depend on what is answered when its sandbox is released. -/
theorem run_withTeardownOf (other : Client σ) (scenario : Scenario) (w : World σ) :
    ((h.withTeardownOf other).run scenario w).1 = (h.run scenario w).1 := by
  unfold run
  -- The harnesses differ in the release only, and by then the result is known.
  rw [withFixture_run, withFixture_run, runSandboxFor_withTeardownOf]
  rcases h.runSandboxFor scenario w with ⟨acquired, w'⟩
  cases acquired with
  | ok fixture => simp only [runIn_withTeardownOf]
  | error error => rfl

def session (w : World σ) (actions : List Action) : Bench σ :=
  Bench.performAll h { world := w } actions

theorem session_concat (w : World σ) (actions : List Action) (action : Action) :
    h.session w (actions ++ [action]) = ((h.session w actions).perform h action).2 :=
  Bench.performAll_append h _ actions [action]

theorem logsStand_session {h : Harness σ} (hclient : h.client.SparesLogs) {w : World σ}
    (hcalm : w.Calm) (actions : List Action) : (h.session w actions).LogsStand := by
  apply Bench.LogsStand.performAll hclient
  refine ⟨hcalm, ?_, ?_⟩
  · rintro index directory ⟨fixture, hlive, _⟩
    cases hlive
  · rintro index index' directory ⟨fixture, hlive, _⟩
    cases hlive

structure TearsDown : Prop where
  /-- A scenario runs one sandbox at most and releases it at its end. -/
  scenario (scenario : Scenario) (w : World σ) :
    ∃ made, w.Made made (h.run scenario w).2 ∧ Lifetime (made.map Call.exchange)
  scenarioLogs (scenario : Scenario) (w : World σ) : h.client.SparesLogs → w.Calm →
    ∃ made, w.Made made (h.run scenario w).2 ∧ LogsOutlive made (h.run scenario w).2
  /-- What is answered when a sandbox is released does not matter. -/
  scenarioResult (other : Client σ) (scenario : Scenario) (w : World σ) :
    ((h.withTeardownOf other).run scenario w).1 = (h.run scenario w).1
  /-- An action of a session releases the sandbox that it drops, and no other one. -/
  action (bench : Bench σ) (action : Action) : bench.Steps action (bench.perform h action).2
  /-- At the end of a session what is left is dropped, as by actions of the session. -/
  close (bench : Bench σ) : bench.close h =
    bench.performAll h ((List.range bench.fixtures.length).map .release)
  /-- In a whole session every sandbox that was run is released, by one call of each kind. -/
  balance (w : World σ) (actions : List Action) :
    ∃ made, w.Made made ((h.session w actions).close h).world ∧
      SandboxSteps [] (made.map Call.exchange) ((h.session w actions).close h).fixtures ∧
      (∀ fixture ∈ ((h.session w actions).close h).fixtures, fixture = none) ∧
      ReleasedOnce (made.map Call.exchange)
  /-- The log directory of a sandbox stands until the sandbox is dropped. -/
  droppedLogs (w : World σ) (actions : List Action) (index : Nat) (fixture : Fixture)
    (directory : String) : h.client.SparesLogs → w.Calm →
    (h.session w actions).fixture? index = some fixture →
    fixture.ownDirectory = some directory →
    ∃ made,
      (h.session w actions).world.Made made (h.session w (actions ++ [.release index])).world ∧
        Releases fixture.id (made.map Call.exchange) ∧
        (∀ call ∈ made, call.before.tree.exists? directory = .ok true) ∧
        (h.session w (actions ++ [.release index])).world.tree.exists? directory = .ok false
  /-- The log directory of a sandbox that could not be run is gone at once. -/
  refusedLogs (w : World σ) (actions : List Action) (action : Action) (call : Call σ)
    (config : SandboxConfig) (message directory : String) : h.client.SparesLogs → w.Calm →
    action.runs = true →
    (h.session w actions).world.Made [call] (h.session w (actions ++ [action])).world →
    call.exchange = .asked (.runSandbox config) (.error message) →
    config.logDirectory = some directory →
    (h.session w (actions ++ [action])).world.tree.exists? directory = .ok false

/-- Every harness releases what it has run. -/
theorem tearsDown : h.TearsDown where
  scenario := h.run_lifetime
  scenarioLogs scenario _ hclient hcalm := run_logsOutlive hclient scenario hcalm
  scenarioResult := h.run_withTeardownOf
  action := Bench.steps_perform h
  close := Bench.close_eq h
  balance w actions := by
    obtain ⟨made, hmade, hsteps⟩ := Bench.steps_run h { world := w } actions
    have hreleased := Bench.fixtures_run h { world := w } actions
    exact ⟨made, hmade, hsteps, hreleased, hsteps.releasedOnce hreleased⟩
  droppedLogs w actions index fixture directory hclient hcalm hlive hown := by
    rw [session_concat]
    exact release_session hclient (logsStand_session hclient hcalm actions) hlive hown
  refusedLogs w actions action call config message directory hclient hcalm haction hmade hcall
      hlogs := by
    rw [session_concat] at hmade ⊢
    exact refused_session hclient (logsStand_session hclient hcalm actions) haction hmade hcall
      hlogs

/-- A sandbox with logs is released although its runtime can neither stop nor remove it. -/
theorem tearsDown_unavailable :
    let h : Harness Unit := ⟨.unavailable, {}⟩
    let w := World.start ⟨[], []⟩ ()
    h.client.SparesLogs ∧ w.Calm ∧ ∃ fixture,
      (h.session w [.runSandboxWithLogs]).fixture? 0 = some fixture ∧
        fixture.ownDirectory = some "/podLogTestZq0000" ∧
        (h.session w ([.runSandboxWithLogs] ++ [.release 0])).world.tree.exists?
          "/podLogTestZq0000" = .ok false := by
  intro h w
  have hclient : h.client.SparesLogs := by
    constructor
    · intro request now store
      cases request <;> exact ⟨.refl _, nofun⟩
    · intro id timeout now store
      exact ⟨.refl _, nofun⟩
  have hcalm : w.Calm := by
    refine ⟨⟨?_, nofun⟩, nofun⟩
    intro place hplace
    rw [List.prefix_nil.mp hplace]
    rfl
  have hlogs : ((h.session w [.runSandboxWithLogs]).fixture? 0).bind Fixture.ownDirectory =
      some "/podLogTestZq0000" := by decide +kernel
  obtain ⟨fixture, hlive, hown⟩ := Option.bind_eq_some_iff.mp hlogs
  obtain ⟨made, _, _, _, hgone⟩ :=
    h.tearsDown.droppedLogs w [.runSandboxWithLogs] 0 fixture _ hclient hcalm hlive hown
  exact ⟨hclient, hcalm, fixture, hlive, hown, hgone⟩

end Harness

end Check

end ContainerCheck
