import ContainerCheck.Proofs.BenchCalls
import ContainerCheck.Proofs.Budgets

namespace ContainerCheck.Check

open ContainerCheck.Cri ContainerCheck.Host ContainerCheck.Session

variable {σ α : Type}

def Prices.ofAction (p : Prices) (config : Config) : Action → Nat
  | .status _ => p.status
  | .waitForState .. | .startAndWait _ => p.state
  | .stop _ timeout => p.stop timeout
  | .stopAndWait _ => p.stop config.stopContainerTimeout + p.state
  | .waitForLog _ => p.output
  | .verifyUnchanged .. => p.steady
  | _ => 0

structure Harness.RunBudgets (h : Harness σ) (p : Prices) (R : Nat → Conduct σ) : Prop
    extends Harness.Budgets h p R where
  runs (config : SandboxConfig) : Obeys (R 0) (h.call (.runSandbox config))
  /-- What is told to a sandbox behind a step. -/
  tell {a : Nat} {w w' : World σ} {outcome : Option Error} {request : Request} :
    request.ofSandbox = true → R a w outcome w' → R a w outcome (h.tell request w')
  execFails (id : ContainerId) (command : List String) :
    Obeys (R 0) (h.verifyExecFails id command)

namespace Harness.RunBudgets

variable {h : Harness σ} {p : Prices} {R : Nat → Conduct σ} (hR : h.RunBudgets p R)
include hR

theorem startFixture (stem : String) (directory : Option String) :
    Obeys (R 0) (h.startFixture stem directory) := by
  apply hR.behindHost (OnHost.bind (.uniqueName stem) fun _ => onHost_named _ _)
  intro config
  exact hR.beforeHost (hR.runs config) fun _ => .pure _

theorem runSandbox : Obeys (R 0) h.runSandbox := hR.startFixture _ none

theorem runSandboxWithLogs : Obeys (R 0) h.runSandboxWithLogs := by
  rw [runSandboxWithLogs_eq]
  apply hR.behindHost (.makeTemporary _)
  intro directory w
  have hstart := hR.startFixture "PodSandbox-with-log-directory-" (some directory) w
  unfold Session.orDiscard
  rcases heq : h.startFixture "PodSandbox-with-log-directory-" (some directory) w with ⟨result, w'⟩
  rw [heq] at hstart
  cases result with
  | ok fixture => exact hstart
  | error error => exact hR.alike hstart (.discard w' directory)

theorem runSandboxFor (scenario : Scenario) : Obeys (R 0) (h.runSandboxFor scenario) := by
  rw [runSandboxFor_eq]
  split
  · exact hR.runSandboxWithLogs
  · exact hR.runSandbox

/-- What is done to release a sandbox is free. -/
theorem release {a : Nat} {w w' : World σ} {outcome : Option Error} (hspent : R a w outcome w')
    (fixture : Fixture) : R a w outcome (h.release fixture w') := by
  have htold : R a w outcome (h.tell (.removeSandbox fixture.id)
      (h.tell (.stopSandbox fixture.id) w')) := hR.tell rfl (hR.tell rfl hspent)
  unfold Harness.release
  cases fixture.ownDirectory with
  | none => exact htold
  | some directory => exact hR.alike htold (.discard _ directory)

/-- A scenario spends no more than the prices of its parts. -/
theorem run (scenario : Scenario) :
    Obeys (R (p.ofScenario h.config scenario)) (h.run scenario) :=
  hR.behindFree (hR.runSandboxFor scenario) fun fixture w => by
    rw [ensuring_run]
    exact hR.release (hR.runIn (fun _ => hR.execFails) fixture w) fixture

theorem acquire {step : Session σ Fixture} (hstep : Obeys (R 0) step) (bench : Bench σ) :
    R 0 bench.world (failure? (bench.acquire step).1) (bench.acquire step).2.world := by
  have hspent := hR.alike (hstep bench.world) (.refl _)
  unfold Bench.acquire
  rcases heq : step bench.world with ⟨result, w⟩
  rw [heq] at hspent
  cases result with
  | ok fixture => exact hspent
  | error error => exact hspent

theorem proceed {a : Nat} {step : Session σ α} (hstep : Obeys (R a) step) (bench : Bench σ)
    (reply : α → Reply) :
    R a bench.world (failure? (bench.proceed step reply).1) (bench.proceed step reply).2.world :=
  hR.alike (Bench.proceed_obeys hstep bench reply).1 (.refl _)

theorem within {a : Nat} {step : Fixture → Session σ α}
    (hstep : ∀ fixture, Obeys (R a) (step fixture)) (bench : Bench σ) (sandbox : Nat)
    (reply : α → Reply) :
    R a bench.world (failure? (bench.within sandbox step reply).1)
      (bench.within sandbox step reply).2.world := by
  unfold Bench.within
  split
  · exact hR.more (Nat.zero_le a) (hR.rest (.refl _) (concludes_assertion _))
  · exact hR.proceed (hstep _) bench reply

/-- An action of a session spends no more than its price. -/
theorem perform (bench : Bench σ) (action : Action) :
    R (p.ofAction h.config action) bench.world (failure? (bench.perform h action).1)
      (bench.perform h action).2.world := by
  cases action with
  | runSandbox =>
    rw [Bench.perform]
    exact hR.acquire hR.runSandbox bench
  | runSandboxWithLogs =>
    rw [Bench.perform]
    exact hR.acquire hR.runSandboxWithLogs bench
  | release sandbox =>
    have hrest : R 0 bench.world none bench.world := hR.rest (.refl _) concludes_none
    simp only [Bench.perform, Bench.release]
    cases bench.fixture? sandbox with
    | none => exact hrest
    | some fixture => exact hR.release hrest fixture
  | logDirectory sandbox =>
    exact hR.within (fun fixture => hR.onHost (.lift (concludes_logDirectory fixture))) bench
      sandbox _
  | ensureImage image => exact hR.proceed (hR.ensureImage image) bench _
  | create sandbox config =>
    exact hR.within (fun fixture => hR.create fixture config) bench sandbox _
  | createDefault sandbox stem =>
    exact hR.within (fun fixture => hR.createDefault fixture stem) bench sandbox _
  | status id => exact hR.proceed (hR.status id) bench _
  | waitForState id state => exact hR.proceed (hR.waitForState id state) bench _
  | start id => exact hR.proceed (hR.call rfl) bench _
  | startAndWait id => exact hR.proceed (hR.startAndWait id) bench _
  | stop id timeout => exact hR.proceed (hR.stop id timeout) bench _
  | stopAndWait id => exact hR.proceed (hR.stopAndWait id) bench _
  | remove id => exact hR.proceed (hR.call rfl) bench _
  | reopenLog id => exact hR.proceed (hR.call rfl) bench _
  | list filter => exact hR.proceed (hR.call rfl) bench _
  | exec id command => exact hR.proceed (hR.exec id command) bench _
  | verifyExec id command expected => exact hR.proceed (hR.verifyExec id command expected) bench _
  | verifyExecFails id command => exact hR.proceed (hR.execFails id command) bench _
  | waitForLog path => exact hR.proceed (hR.waitForLog path) bench _
  | verifyUnchanged path length => exact hR.proceed (hR.verifyUnchanged path length) bench _
  | verifyDefaultLog path =>
    exact hR.proceed (hR.onHost (onHost_verifyLog path _ _)) bench _

end Harness.RunBudgets

end ContainerCheck.Check
