import ContainerCheck.Check.Bench
import ContainerCheck.Proofs.SandboxCalls

namespace ContainerCheck.Check

open ContainerCheck.Cri ContainerCheck.Session ContainerCheck.Check.Harness

variable {σ : Type}

def Action.runs : Action → Bool
  | runSandbox | runSandboxWithLogs => true
  | _ => false

def Action.inSandbox : Action → Bool
  | runSandbox | runSandboxWithLogs | release _ => false
  | _ => true

namespace Bench

section

variable {h : Harness σ} {R : Conduct σ}

theorem proceed_obeys {α : Type} {step : Session σ α} (hstep : Obeys R step) (bench : Bench σ)
    (reply : α → Reply) :
    R bench.world (failure? (bench.proceed step reply).1) (bench.proceed step reply).2.world ∧
      (bench.proceed step reply).2.fixtures = bench.fixtures := by
  have hrun := hstep bench.world
  unfold proceed
  rcases heq : step bench.world with ⟨result, w⟩
  rw [heq] at hrun
  cases result with
  | ok value => exact ⟨hrun, rfl⟩
  | error error => exact ⟨hrun, rfl⟩

theorem within_obeys (hR : R.Composes) {α : Type} {step : Fixture → Session σ α}
    (hstep : ∀ fixture, Obeys R (step fixture)) (bench : Bench σ) (sandbox : Nat)
    (reply : α → Reply) :
    R bench.world (failure? (bench.within sandbox step reply).1)
        (bench.within sandbox step reply).2.world ∧
      (bench.within sandbox step reply).2.fixtures = bench.fixtures := by
  unfold within
  split
  · exact ⟨hR.giveUp _ (hR.rest _), rfl⟩
  · exact proceed_obeys (hstep _) bench reply

/-- An action in a sandbox keeps to every conduct that the calls in a sandbox keep to. -/
theorem perform_obeys (hR : h.Conducts R)
    (hfails : ∀ id command, Obeys R (h.verifyExecFails id command)) (bench : Bench σ)
    {action : Action} (haction : action.inSandbox = true) :
    R bench.world (failure? (bench.perform h action).1) (bench.perform h action).2.world ∧
      (bench.perform h action).2.fixtures = bench.fixtures := by
  have hC := hR.toComposes
  cases action with
  | runSandbox => cases haction
  | runSandboxWithLogs => cases haction
  | release sandbox => cases haction
  | logDirectory sandbox => exact within_obeys hC (fun _ => Obeys.lift hC _) bench sandbox _
  | ensureImage image => exact proceed_obeys (obeys_ensureImage hR image) bench _
  | create sandbox config =>
    exact within_obeys hC (fun fixture => obeys_createContainer hR fixture config) bench sandbox _
  | createDefault sandbox stem =>
    exact within_obeys hC (fun fixture => obeys_createDefaultContainer hR fixture stem) bench
      sandbox _
  | status id => exact proceed_obeys (obeys_containerStatus hR id) bench _
  | waitForState id state => exact proceed_obeys (obeys_waitForState hR id state) bench _
  | start id => exact proceed_obeys (obeys_startContainer hR id) bench _
  | startAndWait id => exact proceed_obeys (obeys_startAndWait hR id) bench _
  | stop id timeout => exact proceed_obeys (hR.stops id timeout) bench _
  | stopAndWait id => exact proceed_obeys (obeys_stopAndWait hR id) bench _
  | remove id => exact proceed_obeys (obeys_removeContainer hR id) bench _
  | reopenLog id => exact proceed_obeys (obeys_reopenLog hR id) bench _
  | list filter => exact proceed_obeys (hR.calls (.listContainers filter) rfl) bench _
  | exec id command => exact proceed_obeys (obeys_exec hR id command) bench _
  | verifyExec id command expected =>
    exact proceed_obeys (obeys_verifyExec hR id command expected) bench _
  | verifyExecFails id command => exact proceed_obeys (hfails id command) bench _
  | waitForLog path => exact proceed_obeys (obeys_waitForLog hR path) bench _
  | verifyUnchanged path length =>
    exact proceed_obeys (obeys_verifyUnchanged hR path length) bench _
  | verifyDefaultLog path => exact proceed_obeys (obeys_verifyDefaultLog hR path) bench _

end

end Bench

inductive SandboxStep (fixtures : List (Option Fixture)) :
    Action → List Exchange → List (Option Fixture) → Prop
  | ran {action : Action} (haction : action.runs = true) (fixture : Fixture)
    (hown : fixture.ownDirectory = fixture.config.logDirectory) :
    SandboxStep fixtures action [.asked (.runSandbox fixture.config) (.ok fixture.id)]
      (fixtures ++ [some fixture])
  | refused {action : Action} (haction : action.runs = true) (config : SandboxConfig)
    (message : String) :
    SandboxStep fixtures action [.asked (.runSandbox config) (.error message)] fixtures
  | released {index : Nat} {fixture : Fixture} {trace : List Exchange}
    (hlive : fixtures[index]? = some (some fixture)) (htrace : Releases fixture.id trace) :
    SandboxStep fixtures (.release index) trace (fixtures.set index none)
  | quiet {action : Action} {trace : List Exchange}
    (htrace : ∀ exchange ∈ trace, exchange.ofSandbox = false)
    (hdead : ∀ index fixture, action = .release index → fixtures[index]? ≠ some (some fixture)) :
    SandboxStep fixtures action trace fixtures

namespace Bench

def Steps (bench : Bench σ) (action : Action) (after : Bench σ) : Prop :=
  ∃ made, bench.world.Made made after.world ∧
    SandboxStep bench.fixtures action (made.map Call.exchange) after.fixtures

variable (h : Harness σ)

theorem steps_of_quiet {bench after : Bench σ} {action : Action} (outcome : Option Error)
    (hquiet : Quiet bench.world outcome after.world) (hfixtures : after.fixtures = bench.fixtures)
    (hdead : ∀ index fixture, action = .release index →
      bench.fixtures[index]? ≠ some (some fixture)) : bench.Steps action after := by
  obtain ⟨made, hmade, hnone⟩ := hquiet
  refine ⟨made, hmade, ?_⟩
  rw [hfixtures]
  refine .quiet ?_ hdead
  intro exchange hexchange
  obtain ⟨call, hcall, rfl⟩ := List.mem_map.mp hexchange
  exact hnone call hcall

theorem world_acquire (bench : Bench σ) (step : Session σ Fixture) :
    (bench.acquire step).2.world = (step bench.world).2 := by
  unfold acquire
  rcases step bench.world with ⟨result, w⟩
  cases result with
  | ok fixture => rfl
  | error error => rfl

theorem steps_acquire {bench : Bench σ} {action : Action} (haction : action.runs = true)
    {step : Session σ Fixture}
    (hstep : Acquired bench.world (step bench.world).1 (step bench.world).2) :
    bench.Steps action (bench.acquire step).2 := by
  unfold acquire
  rcases heq : step bench.world with ⟨result, w⟩
  rw [heq] at hstep
  cases hstep with
  | unmade error hmade =>
    refine steps_of_quiet none ⟨[], hmade, by simp⟩ rfl ?_
    rintro index fixture rfl
    cases haction
  | refused config message hmade hcall =>
    refine ⟨_, hmade, ?_⟩
    rw [List.map_singleton, hcall]
    exact .refused haction config message
  | ran fixture hmade hcall hown =>
    refine ⟨_, hmade, ?_⟩
    rw [List.map_singleton, hcall]
    exact .ran haction fixture hown

theorem fixture?_eq_some {bench : Bench σ} {index : Nat} {fixture : Fixture} :
    bench.fixture? index = some fixture ↔ bench.fixtures[index]? = some (some fixture) :=
  Option.join_eq_some_iff

theorem steps_release (bench : Bench σ) (index : Nat) :
    bench.Steps (.release index) (bench.release h index).2 := by
  unfold release
  cases hfixture : bench.fixture? index with
  | none =>
    refine steps_of_quiet none (quiet_composes.rest bench.world) rfl ?_
    rintro index' fixture hindex hlive
    cases hindex
    rw [fixture?_eq_some.mpr hlive] at hfixture
    cases hfixture
  | some fixture =>
    refine ⟨_, h.made_release fixture bench.world, ?_⟩
    exact .released (fixture?_eq_some.mp hfixture) (h.releases_calls fixture.id bench.world)

/-- Every action of a session does to the sandboxes what it is for, and nothing else. -/
theorem steps_perform (bench : Bench σ) (action : Action) :
    bench.Steps action (bench.perform h action).2 := by
  -- Three actions are about sandboxes; for all others one argument will do.
  by_cases haction : action.inSandbox = true
  · obtain ⟨hquiet, hfixtures⟩ := perform_obeys h.conducts_quiet.toConducts
      (verifyExecFails_quiet h) bench haction
    refine steps_of_quiet _ hquiet hfixtures ?_
    rintro index fixture rfl
    cases haction
  · cases action with
    | runSandbox =>
      rw [perform]
      exact steps_acquire rfl (acquired_runSandbox h bench.world)
    | runSandboxWithLogs =>
      rw [perform]
      exact steps_acquire rfl (acquired_runSandboxWithLogs h bench.world)
    | release index =>
      rw [perform]
      exact steps_release h bench index
    | _ => exact absurd rfl haction

end Bench

inductive SandboxSteps : List (Option Fixture) → List Exchange → List (Option Fixture) → Prop
  | nil (fixtures : List (Option Fixture)) : SandboxSteps fixtures [] fixtures
  | cons {fixtures fixtures' fixtures'' : List (Option Fixture)} {action : Action}
    {trace more : List Exchange} (hfirst : SandboxStep fixtures action trace fixtures')
    (hrest : SandboxSteps fixtures' more fixtures'') :
    SandboxSteps fixtures (trace ++ more) fixtures''

/-- What a call did to which sandbox: it has run it, or was to stop or to remove it. -/
def sandboxCall? : Exchange → Option (Operation × SandboxId)
  | .asked (.runSandbox _) (.ok id) => some (.runPodSandbox, id)
  | .asked (.stopSandbox id) _ => some (.stopPodSandbox, id)
  | .asked (.removeSandbox id) _ => some (.removePodSandbox, id)
  | _ => none

@[simp] theorem sandboxCall?_stop (id : SandboxId) (answer : Except String Unit) :
    sandboxCall? (.asked (.stopSandbox id) answer) = some (.stopPodSandbox, id) := rfl

@[simp] theorem sandboxCall?_remove (id : SandboxId) (answer : Except String Unit) :
    sandboxCall? (.asked (.removeSandbox id) answer) = some (.removePodSandbox, id) := rfl

theorem sandboxCall?_of_quiet {exchange : Exchange} (h : exchange.ofSandbox = false) :
    sandboxCall? exchange = none := by
  unfold sandboxCall?
  split
  · cases h
  · cases h
  · cases h
  · rfl

def sandboxCalls (operation : Operation) (id : SandboxId) (trace : List Exchange) : Nat :=
  trace.countP fun exchange => sandboxCall? exchange == some (operation, id)

theorem sandboxCalls_append (operation : Operation) (id : SandboxId) (trace more : List Exchange) :
    sandboxCalls operation id (trace ++ more) =
      sandboxCalls operation id trace + sandboxCalls operation id more :=
  List.countP_append

theorem sandboxCalls_quiet {trace : List Exchange}
    (h : ∀ exchange ∈ trace, exchange.ofSandbox = false) (operation : Operation) (id : SandboxId) :
    sandboxCalls operation id trace = 0 := by
  unfold sandboxCalls
  rw [List.countP_eq_zero]
  intro exchange hexchange
  rw [sandboxCall?_of_quiet (h exchange hexchange)]
  simp

/-- How many sandboxes of an id have not been released. -/
def liveSandboxes (id : SandboxId) (fixtures : List (Option Fixture)) : Nat :=
  fixtures.countP fun fixture => fixture.map Fixture.id == some id

theorem liveSandboxes_set {fixtures : List (Option Fixture)} {index : Nat} {fixture : Fixture}
    (h : fixtures[index]? = some (some fixture)) (id : SandboxId) :
    liveSandboxes id fixtures =
      liveSandboxes id (fixtures.set index none) + if fixture.id = id then 1 else 0 := by
  obtain ⟨hindex, hget⟩ := List.getElem?_eq_some_iff.mp h
  unfold liveSandboxes
  rw [List.countP_set hindex, hget]
  simp only [Option.map_some, Option.map_none]
  by_cases hid : fixture.id = id
  -- The fixture is counted, so that there is something to take off.
  · have hpos : 0 < fixtures.countP fun other => other.map Fixture.id == some id := by
      rw [List.countP_pos_iff]
      refine ⟨some fixture, ?_, by simp [hid]⟩
      rw [← hget]
      exact List.getElem_mem hindex
    simp [hid]
    omega
  · simp [hid]

/-- What is run is released or still there. -/
theorem SandboxStep.balance {fixtures fixtures' : List (Option Fixture)} {action : Action}
    {trace : List Exchange} (h : SandboxStep fixtures action trace fixtures') (id : SandboxId) :
    sandboxCalls .runPodSandbox id trace + liveSandboxes id fixtures =
        sandboxCalls .stopPodSandbox id trace + liveSandboxes id fixtures' ∧
      sandboxCalls .stopPodSandbox id trace = sandboxCalls .removePodSandbox id trace := by
  cases h with
  | ran haction fixture hown =>
    simp [sandboxCalls, sandboxCall?, liveSandboxes, List.countP_append, Nat.add_comm]
  | refused haction config message => simp [sandboxCalls, sandboxCall?]
  | released hlive htrace =>
    obtain ⟨stopped, removed, rfl⟩ := htrace
    rw [liveSandboxes_set hlive id]
    simp [sandboxCalls, List.countP_cons, Nat.add_comm]
  | quiet htrace hdead =>
    rw [sandboxCalls_quiet htrace, sandboxCalls_quiet htrace, sandboxCalls_quiet htrace]
    exact ⟨rfl, rfl⟩

theorem SandboxSteps.balance {fixtures fixtures' : List (Option Fixture)} {trace : List Exchange}
    (h : SandboxSteps fixtures trace fixtures') (id : SandboxId) :
    sandboxCalls .runPodSandbox id trace + liveSandboxes id fixtures =
        sandboxCalls .stopPodSandbox id trace + liveSandboxes id fixtures' ∧
      sandboxCalls .stopPodSandbox id trace = sandboxCalls .removePodSandbox id trace := by
  induction h with
  | nil fixtures => exact ⟨rfl, rfl⟩
  | cons hfirst _ ih =>
    obtain ⟨hran, hstopped⟩ := hfirst.balance id
    rw [sandboxCalls_append, sandboxCalls_append, sandboxCalls_append]
    omega

/-- Every sandbox that was run is stopped by one call and removed by one. -/
def ReleasedOnce (trace : List Exchange) : Prop :=
  ∀ id, sandboxCalls .stopPodSandbox id trace = sandboxCalls .runPodSandbox id trace ∧
    sandboxCalls .removePodSandbox id trace = sandboxCalls .runPodSandbox id trace

theorem liveSandboxes_of_released {fixtures : List (Option Fixture)}
    (h : ∀ fixture ∈ fixtures, fixture = none) (id : SandboxId) :
    liveSandboxes id fixtures = 0 := by
  unfold liveSandboxes
  rw [List.countP_eq_zero]
  intro fixture hfixture
  rw [h fixture hfixture]
  simp

/-- Where no sandbox is left, each was released once. -/
theorem SandboxSteps.releasedOnce {fixtures : List (Option Fixture)} {trace : List Exchange}
    (h : SandboxSteps [] trace fixtures) (hreleased : ∀ fixture ∈ fixtures, fixture = none) :
    ReleasedOnce trace := by
  intro id
  obtain ⟨hran, hstopped⟩ := h.balance id
  have hstart : liveSandboxes id [] = 0 := rfl
  rw [liveSandboxes_of_released hreleased id, hstart] at hran
  omega

namespace Bench

variable (h : Harness σ)

def performAll (bench : Bench σ) (actions : List Action) : Bench σ :=
  actions.foldl (fun bench action => (bench.perform h action).2) bench

theorem performAll_append (bench : Bench σ) (actions more : List Action) :
    bench.performAll h (actions ++ more) = (bench.performAll h actions).performAll h more :=
  List.foldl_append

theorem steps_performAll (bench : Bench σ) (actions : List Action) :
    ∃ made, bench.world.Made made (bench.performAll h actions).world ∧
      SandboxSteps bench.fixtures (made.map Call.exchange)
        (bench.performAll h actions).fixtures := by
  induction actions generalizing bench with
  | nil => exact ⟨[], .nil rfl, .nil bench.fixtures⟩
  | cons action actions ih =>
    obtain ⟨made, hmade, hstep⟩ := steps_perform h bench action
    obtain ⟨more, hmore, hsteps⟩ := ih (bench.perform h action).2
    refine ⟨made ++ more, hmade.append hmore, ?_⟩
    rw [List.map_append]
    exact .cons hstep hsteps

/-- Releases the sandbox that stands behind those that have been released. -/
theorem release_next (released rest : List (Option Fixture)) (fixture : Option Fixture)
    (w : World σ) :
    (Bench.release h ⟨released ++ fixture :: rest, w⟩ released.length).2 =
      ⟨(released ++ [none]) ++ rest, fixture.elim w fun f => h.release f w⟩ := by
  have hget : (Bench.mk (released ++ fixture :: rest) w).fixture? released.length = fixture := by
    unfold fixture?
    rw [List.getElem?_append_right (Nat.le_refl _), Nat.sub_self]
    cases fixture <;> rfl
  unfold release
  rw [hget]
  cases fixture with
  | none => simp
  | some f => simp

theorem releaseAll (rest released : List (Option Fixture)) (w : World σ) :
    Bench.performAll h ⟨released ++ rest, w⟩
        ((List.range' released.length rest.length).map .release) =
      ⟨released ++ rest.map fun _ => none,
        rest.foldl (fun w fixture => fixture.elim w fun f => h.release f w) w⟩ := by
  -- The induction is on what is left; what has been released grows in front of it.
  induction rest generalizing released w with
  | nil => simp [performAll]
  | cons fixture rest ih =>
    have hnext := ih (released ++ [none]) (fixture.elim w fun f => h.release f w)
    rw [List.length_append, List.length_singleton] at hnext
    rw [List.length_cons, List.range'_succ, List.map_cons]
    unfold performAll at hnext ⊢
    rw [List.foldl_cons, perform, release_next, hnext, List.append_assoc]
    rfl

/-- What is left at the end of a session is released as by actions of the session. -/
theorem close_eq (bench : Bench σ) :
    bench.close h = bench.performAll h ((List.range bench.fixtures.length).map .release) := by
  have hall := releaseAll h bench.fixtures [] bench.world
  rw [List.length_nil, ← List.range_eq_range'] at hall
  exact hall.symm

theorem run_eq (bench : Bench σ) (actions : List Action) :
    bench.run h actions = bench.performAll h (actions ++
      (List.range (bench.performAll h actions).fixtures.length).map .release) := by
  rw [performAll_append, ← close_eq]
  rfl

theorem fixtures_run (bench : Bench σ) (actions : List Action) :
    ∀ fixture ∈ (bench.run h actions).fixtures, fixture = none := by
  intro fixture hfixture
  obtain ⟨_, _, rfl⟩ := List.mem_map.mp hfixture
  rfl

theorem steps_run (bench : Bench σ) (actions : List Action) :
    ∃ made, bench.world.Made made (bench.run h actions).world ∧
      SandboxSteps bench.fixtures (made.map Call.exchange) (bench.run h actions).fixtures := by
  rw [run_eq]
  exact steps_performAll h bench _

end Bench

end ContainerCheck.Check
