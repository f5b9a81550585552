import ContainerCheck.Proofs.Operations

namespace ContainerCheck

open ContainerCheck.Cri ContainerCheck.Host ContainerCheck.Session

variable {σ α β : Type}

namespace World

/-- Whether two worlds are the same to a runtime: the time, what it keeps, the changes to come and
the calls made so far. -/
structure Alike (w w' : World σ) : Prop where
  clock : w'.clock = w.clock
  state : w'.store.state = w.store.state
  pending : w'.pending = w.pending
  calls : w'.calls = w.calls

namespace Alike

theorem refl (w : World σ) : w.Alike w := ⟨rfl, rfl, rfl, rfl⟩

theorem trans {w w' w'' : World σ} (h : w.Alike w') (h' : w'.Alike w'') : w.Alike w'' :=
  ⟨h'.clock.trans h.clock, h'.state.trans h.state, h'.pending.trans h.pending,
    h'.calls.trans h.calls⟩

theorem noteNow (w : World σ) {deed : Deed} (h : deed.onHost = true) : w.Alike (w.noteNow deed) :=
  ⟨rfl, rfl, rfl, calls_noteNow w h⟩

theorem setTree (w : World σ) (tree : Tree) : w.Alike (w.setTree tree) := ⟨rfl, rfl, rfl, rfl⟩

theorem discard (w : World σ) (path : String) : w.Alike (w.discard path) := by
  unfold World.discard
  split
  · exact setTree w _
  · exact refl w

theorem discardFile (w : World σ) (path : String) : w.Alike (w.discardFile path) := by
  unfold World.discardFile
  split
  · exact setTree w _
  · exact refl w

theorem makeTemporary (parent stem : String) (attempts : Nat) (w : World σ) :
    w.Alike (w.makeTemporary parent stem attempts).2 := by
  induction attempts generalizing w with
  | zero => exact refl w
  | succ attempts ih =>
    have hdrawn : w.Alike { w with drawn := w.drawn + 1 } := ⟨rfl, rfl, rfl, rfl⟩
    unfold World.makeTemporary
    dsimp only
    split
    · exact hdrawn.trans (setTree _ _)
    · split
      · exact hdrawn.trans (ih _)
      · exact hdrawn

end Alike

end World

namespace Session

def OnHost (step : Session σ α) : Prop :=
  ∀ w, w.Alike (step w).2 ∧ Concludes (failure? (step w).1)

namespace OnHost

theorem pure (value : α) : OnHost (Pure.pure value : Session σ α) :=
  fun w => ⟨.refl w, concludes_none⟩

theorem lift {result : Except Error α} (h : Concludes (failure? result)) :
    OnHost (Session.lift result : Session σ α) :=
  fun w => ⟨.refl w, h⟩

theorem fail {error : Error} (h : Concludes (some error)) :
    OnHost (Session.fail error : Session σ α) :=
  fun w => ⟨.refl w, h⟩

theorem require (condition : Bool) (message : String) :
    OnHost (Session.require condition message : Session σ Unit) := by
  unfold Session.require
  split
  · exact pure ()
  · exact fail (concludes_assertion message)

theorem bind {first : Session σ α} {next : α → Session σ β} (hfirst : OnHost first)
    (hnext : ∀ value, OnHost (next value)) : OnHost (first >>= next) := by
  intro w
  obtain ⟨halike, hconcludes⟩ := hfirst w
  rw [bind_run]
  rcases heq : first w with ⟨result, w'⟩
  rw [heq] at halike hconcludes
  cases result with
  | ok value => exact ⟨halike.trans (hnext value w').1, (hnext value w').2⟩
  | error error => exact ⟨halike, hconcludes⟩

theorem orDiscard {step : Session σ α} (h : OnHost step) (directory : String) :
    OnHost (Session.orDiscard directory step) := by
  intro w
  obtain ⟨halike, hconcludes⟩ := h w
  unfold Session.orDiscard
  rcases heq : step w with ⟨result, w'⟩
  rw [heq] at halike hconcludes
  cases result with
  | ok value => exact ⟨halike, hconcludes⟩
  | error error => exact ⟨halike.trans (.discard w' directory), hconcludes⟩

theorem uniqueName (stem : String) : OnHost (Session.uniqueName stem : Session σ String) :=
  fun _ => ⟨⟨rfl, rfl, rfl, rfl⟩, concludes_none⟩

theorem inspect {deed : Deed} (hdeed : deed.onHost = true) {read : Tree → Except Error α}
    (hread : ∀ tree, Concludes (failure? (read tree))) :
    OnHost (Session.inspect deed read : Session σ α) :=
  fun w => ⟨.noteNow w hdeed, hread w.tree⟩

theorem changeTree {deed : Deed} (hdeed : deed.onHost = true) (path : String)
    (change : Tree → Except IoFault Tree) :
    OnHost (Session.changeTree deed path change : Session σ Unit) := by
  intro w
  unfold Session.changeTree
  split
  · exact ⟨(World.Alike.noteNow w hdeed).trans (.setTree _ _), concludes_none⟩
  · exact ⟨.noteNow w hdeed, nofun⟩

theorem concludes_hostResult (path : String) (result : Except IoFault α) :
    Concludes (failure? (hostResult path result)) := by
  cases result with
  | ok value => exact concludes_none
  | error fault => exact nofun

theorem concludes_recordsOf (path : String) (content : Except IoFault (List UInt8)) :
    Concludes (failure? (recordsOf path content)) := by
  cases content with
  | error fault => exact nofun
  | ok bytes =>
    simp only [recordsOf, hostResult, contentRecords]
    cases Log.readRecords bytes with
    | error malformed => exact nofun
    | ok records => exact concludes_none

theorem makeTemporary (stem : String) :
    OnHost (Session.makeTemporary stem : Session σ String) := by
  intro w
  unfold Session.makeTemporary
  have hnoted := World.Alike.noteNow w (rfl : (Deed.makeTemporary stem).onHost = true)
  exact ⟨hnoted.trans (.makeTemporary _ stem _ _), concludes_hostResult _ _⟩

theorem readLog (path : String) : OnHost (Session.readLog path : Session σ (List Log.Record)) :=
  inspect rfl fun _ => concludes_recordsOf path _

theorem pathExists (path : String) : OnHost (Session.pathExists path : Session σ Bool) :=
  inspect rfl fun _ => concludes_hostResult path _

theorem rename (source target : String) :
    OnHost (Session.rename source target : Session σ Unit) :=
  changeTree rfl _ _

end OnHost

end Session

/-- A conduct that is graded by what was spent. What is spent by steps that follow one another adds
up. -/
structure Conduct.Graded (R : Nat → Conduct σ) : Prop where
  rest {w w' : World σ} {outcome : Option Error} :
    w.Alike w' → Concludes outcome → R 0 w outcome w'
  andThen {a b : Nat} {w w' w'' : World σ} {outcome : Option Error} :
    R a w none w' → R b w' outcome w'' → R (a + b) w outcome w''
  more {a b : Nat} {w w' : World σ} {outcome : Option Error} :
    a ≤ b → R a w outcome w' → R b w outcome w'
  alike {a : Nat} {w w' w'' : World σ} {outcome : Option Error} :
    R a w outcome w' → w'.Alike w'' → R a w outcome w''

/-- A conduct that heeds no step on the host is a graded one, at no price. -/
theorem Conduct.Composes.graded {R : Conduct σ} (hR : R.Composes)
    (halike : ∀ {w w' w'' : World σ} {outcome : Option Error},
      R w outcome w' → w'.Alike w'' → R w outcome w'') : Conduct.Graded fun _ => R where
  rest hsame _ := hR.of_none (halike (hR.rest _) hsame) _
  andThen := hR.andThen
  more _ hkept := hkept
  alike := halike

namespace Conduct.Graded

variable {R : Nat → Conduct σ} (hR : Graded R)
include hR

theorem onHost {step : Session σ α} (hstep : OnHost step) : Obeys (R 0) step :=
  fun w => hR.rest (hstep w).1 (hstep w).2

theorem bind {a b : Nat} {first : Session σ α} {next : α → Session σ β}
    (hfirst : Obeys (R a) first) (hnext : ∀ value, Obeys (R b) (next value)) :
    Obeys (R (a + b)) (first >>= next) := by
  intro w
  have hspent := hfirst w
  rw [bind_run]
  rcases heq : first w with ⟨result, w'⟩
  rw [heq] at hspent
  cases result with
  | ok value => exact hR.andThen hspent (hnext value w')
  | error error => exact hR.more (Nat.le_add_right a b) hspent

/-- A free step adds nothing to those behind it. -/
theorem behindFree {b : Nat} {first : Session σ α} {next : α → Session σ β}
    (hfirst : Obeys (R 0) first) (hnext : ∀ value, Obeys (R b) (next value)) :
    Obeys (R b) (first >>= next) := by
  have hall := hR.bind hfirst hnext
  rwa [Nat.zero_add] at hall

theorem behindHost {b : Nat} {first : Session σ α} {next : α → Session σ β}
    (hfirst : OnHost first) (hnext : ∀ value, Obeys (R b) (next value)) :
    Obeys (R b) (first >>= next) :=
  hR.behindFree (hR.onHost hfirst) hnext

/-- Free steps add nothing to the step before them. -/
theorem beforeFree {a : Nat} {first : Session σ α} {next : α → Session σ β}
    (hfirst : Obeys (R a) first) (hnext : ∀ value, Obeys (R 0) (next value)) :
    Obeys (R a) (first >>= next) :=
  hR.bind hfirst hnext

theorem beforeHost {a : Nat} {first : Session σ α} {next : α → Session σ β}
    (hfirst : Obeys (R a) first) (hnext : ∀ value, OnHost (next value)) :
    Obeys (R a) (first >>= next) :=
  hR.beforeFree hfirst fun value => hR.onHost (hnext value)

theorem ensuring {a : Nat} {step : Session σ α} (hstep : Obeys (R a) step)
    {cleanup : World σ → World σ} (hcleanup : ∀ w : World σ, w.Alike (cleanup w)) :
    Obeys (R a) (step.ensuring cleanup) :=
  fun w => hR.alike (hstep w) (hcleanup _)

end Conduct.Graded

namespace Check

theorem concludes_execText (command : List String) (output : ExecOutput) :
    Concludes (failure? (execText command output)) := by
  unfold execText
  split
  · exact concludes_none
  · exact concludes_assertion _

theorem concludes_logDirectory (fixture : Fixture) :
    Concludes (failure? fixture.logDirectory) := by
  unfold Fixture.logDirectory
  split
  · exact concludes_none
  · exact nofun

theorem concludes_containerLog (fixture : Fixture) (config : ContainerConfig) :
    Concludes (failure? (Harness.containerLog fixture config)) := by
  unfold Harness.containerLog
  cases config.logPath with
  | none => exact nofun
  | some path =>
    have hdirectory := concludes_logDirectory fixture
    cases hlog : fixture.logDirectory with
    | ok directory => exact concludes_none
    | error error =>
      rw [hlog] at hdirectory
      exact hdirectory

theorem onHost_verifyLog (path payload : String) (stream : Log.LogStream) :
    OnHost (verifyLog path payload stream : Session σ Unit) := by
  apply OnHost.bind (.readLog path)
  intro records
  apply OnHost.lift
  unfold requireMessage
  split
  · exact concludes_none
  · exact concludes_assertion _

theorem onHost_create (owner : String) : OnHost (HostPath.create owner : Session σ String) := by
  apply OnHost.bind (.makeTemporary _)
  intro path
  apply OnHost.orDiscard
  apply OnHost.bind (.changeTree rfl _ _)
  intro _
  exact .pure path

theorem onHost_link (target : String) : OnHost (HostPath.link target : Session σ String) :=
  OnHost.bind (.changeTree rfl _ _) fun _ => .pure _

/-- A fresh name and what is made of it. -/
theorem onHost_named (stem : String) (f : String → α) :
    OnHost (Session.uniqueName stem >>= fun name => Pure.pure (f name) : Session σ α) :=
  OnHost.bind (.uniqueName stem) fun _ => .pure _

theorem onHost_requireExtended (status : ContainerStatus) :
    OnHost (Harness.requireExtended status : Session σ Unit) :=
  OnHost.bind (.require _ _) fun _ => OnHost.bind (.require _ _) fun _ =>
    OnHost.bind (.require _ _) fun _ => .require _ _

end Check

/-- Whether a call in a sandbox is made once wherever it is made, and by itself. -/
def Cri.Request.isFree : Request → Bool
  | startContainer _ | removeContainer _ | listContainers _ | execSync .. | reopenLog _
  | imageStatus _ => true
  | _ => false

namespace Check

/-- What the parts of a run that are not free may spend. -/
structure Prices where
  /-- Asking for the status of a container once. -/
  status : Nat
  /-- Waiting for a state of a container. -/
  state : Nat
  /-- Stopping a container, by its timeout. -/
  stop : Nat → Nat
  /-- Waiting for output in a log. -/
  output : Nat
  /-- Checking that a log stays as it is. -/
  steady : Nat

def Prices.free : Prices := ⟨0, 0, fun _ => 0, 0, 0⟩

def Prices.ofScenario (p : Prices) (config : Config) : Scenario → Nat
  | .createContainer | .startContainer | .startWithVolume | .startWithLinkedVolume
  | .startWithLog | .startExtended => p.state
  | .stopContainer => p.stop config.stopContainerTimeout + p.state
  | .extendedStatus | .imageStatus => p.status
  | .removeVolumes => p.status + p.stop config.stopContainerTimeout
  | .reopenLog => p.output + (p.output + p.steady)
  | .removeContainer | .execSync | .execSyncWrongCommand | .createExtended => 0

/-- A graded conduct that the steps of a harness in a sandbox keep to at their prices. -/
structure Harness.Budgets (h : Harness σ) (p : Prices) (R : Nat → Conduct σ) : Prop
    extends Conduct.Graded R where
  ensureImage (image : Image) : Obeys (R 0) (h.ensureImage image)
  create (fixture : Fixture) (config : ContainerConfig) :
    Obeys (R 0) (h.createContainer fixture config)
  call {request : Request} : request.isFree = true → Obeys (R 0) (h.call request)
  status (id : ContainerId) : Obeys (R p.status) (h.containerStatus id)
  waitForState (id : ContainerId) (state : ContainerState) :
    Obeys (R p.state) (h.waitForState id state)
  stop (id : ContainerId) (timeout : Nat) :
    Obeys (R (p.stop timeout)) (h.stopContainer id timeout)
  waitForLog (path : String) : Obeys (R p.output) (h.waitForLog path)
  verifyUnchanged (path : String) (length : Nat) :
    Obeys (R p.steady) (h.verifyUnchanged path length)

namespace Harness.Budgets

variable {h : Harness σ} {p : Prices} {R : Nat → Conduct σ} (hR : h.Budgets p R)
include hR

theorem createDefault (fixture : Fixture) (stem : String) :
    Obeys (R 0) (h.createDefaultContainer fixture stem) :=
  hR.behindHost (.uniqueName stem) fun _ => hR.create fixture _

theorem startAndWait (id : ContainerId) : Obeys (R p.state) (h.startAndWait id) :=
  hR.behindFree (hR.call rfl) fun _ => hR.waitForState id .running

theorem stopAndWait (id : ContainerId) :
    Obeys (R (p.stop h.config.stopContainerTimeout + p.state)) (h.stopAndWait id) :=
  hR.bind (hR.stop id _) fun _ => hR.waitForState id .exited

theorem exec (id : ContainerId) (command : List String) : Obeys (R 0) (h.exec id command) :=
  hR.beforeHost (hR.call rfl) fun output => .lift (concludes_execText command output)

theorem verifyExec (id : ContainerId) (command : List String) (expected : String) :
    Obeys (R 0) (h.verifyExec id command expected) :=
  hR.beforeHost (hR.exec id command) fun _ => .require _ _

theorem requireListed (id : ContainerId) : Obeys (R 0) (h.requireListed id) :=
  hR.beforeHost (hR.call rfl) fun _ => .require _ _

theorem withDirectory {b : Nat} (owner : String) {body : String → Session σ α}
    (hbody : ∀ path, Obeys (R b) (body path)) :
    Obeys (R b) (HostPath.withDirectory owner body) :=
  hR.behindHost (onHost_create owner) fun path =>
    hR.ensuring (hbody path) fun w => .discard w path

theorem withLink {b : Nat} (target : String) {body : String → Session σ α}
    (hbody : ∀ path, Obeys (R b) (body path)) : Obeys (R b) (HostPath.withLink target body) :=
  hR.behindHost (onHost_link target) fun path =>
    hR.ensuring (hbody path) fun w => .discardFile w path

theorem withDefault {b : Nat} (fixture : Fixture) (stem : String)
    {body : ContainerId → Session σ Unit} (hbody : ∀ id, Obeys (R b) (body id)) :
    Obeys (R b) (h.withDefaultContainer fixture stem body) :=
  hR.behindFree (hR.createDefault fixture stem) hbody

theorem withExtended {b : Nat} (fixture : Fixture) {body : ContainerId → Session σ Unit}
    (hbody : ∀ id, Obeys (R b) (body id)) :
    Obeys (R b) (h.withExtendedContainer fixture body) := by
  apply hR.withDirectory
  intro _
  apply hR.behindHost (onHost_named _ _)
  intro config
  exact hR.behindFree (hR.create fixture config) hbody

/-- Does something with a container that writes a log. -/
theorem withLog {b : Nat} (fixture : Fixture) (stem : String) (command : List String)
    {body : String → ContainerId → Session σ Unit} (hbody : ∀ path id, Obeys (R b) (body path id)) :
    Obeys (R b) (h.logConfig stem command >>= fun config =>
      Session.lift (containerLog fixture config) >>= fun path =>
        h.createContainer fixture config >>= body path) := by
  apply hR.behindHost (onHost_named _ _)
  intro config
  apply hR.behindHost (.lift (concludes_containerLog fixture config))
  intro path
  exact hR.behindFree (hR.create fixture config) (hbody path)

theorem checkVolume (fixture : Fixture) (stem hostPath : String) :
    Obeys (R p.state) (h.checkVolume fixture stem hostPath) := by
  apply hR.behindHost (onHost_named _ _)
  intro config
  apply hR.behindFree (hR.create fixture config)
  intro id
  apply hR.beforeFree (hR.startAndWait id)
  intro _
  exact hR.beforeHost (hR.exec id _) fun _ => .require _ _

theorem checkRotation (id : ContainerId) (path : String) :
    Obeys (R (p.output + (p.output + p.steady))) (h.checkRotation id path) := by
  apply hR.bind (hR.waitForLog path)
  intro _
  apply hR.behindHost (.rename _ _)
  intro _
  apply hR.behindFree (hR.call rfl)
  intro _
  apply hR.behindHost (.pathExists path)
  intro present
  apply hR.behindHost (.require _ _)
  intro _
  apply hR.bind (hR.waitForLog path)
  intro _
  apply hR.behindHost (.readLog _)
  intro before
  exact hR.verifyUnchanged _ before.length

theorem checkImage (id : ContainerId) : Obeys (R p.status) (h.checkImage id) := by
  apply hR.beforeFree (hR.status id)
  intro status
  apply hR.beforeHost (hR.call rfl)
  intro image
  cases image with
  | none => exact .fail (concludes_assertion _)
  | some image => exact .require _ _

theorem checkVolumeRemoval (id : ContainerId) :
    Obeys (R (p.status + p.stop h.config.stopContainerTimeout)) (h.checkVolumeRemoval id) := by
  apply hR.bind (hR.status id)
  intro status
  cases firstVolumeName? (status.mounts.getD []) with
  | none =>
    have hfail : OnHost (Session.fail (.assertion ("container " ++ id.text ++
        " has no named volume")) : Session σ Unit) := .fail (concludes_assertion _)
    exact fun w => hR.more (Nat.zero_le _) (hR.onHost hfail w)
  | some name => exact hR.beforeFree (hR.stop id _) fun _ => hR.call rfl

/-- A scenario spends no more than the prices of its parts, if its call that must fail is free. -/
theorem runIn {scenario : Scenario} (hfails : scenario = .execSyncWrongCommand →
    ∀ id command, Obeys (R 0) (h.verifyExecFails id command)) (fixture : Fixture) :
    Obeys (R (p.ofScenario h.config scenario)) (h.runIn fixture scenario) := by
  cases scenario with
  | createContainer =>
    apply hR.withDefault
    intro id
    exact hR.beforeFree (hR.waitForState id .created) fun _ => hR.requireListed id
  | startContainer => exact hR.withDefault fixture _ hR.startAndWait
  | stopContainer =>
    apply hR.withDefault
    intro id
    exact hR.behindFree (hR.call rfl) fun _ => hR.stopAndWait id
  | removeContainer =>
    apply hR.withDefault
    intro id
    apply hR.behindFree (hR.call rfl)
    intro _
    exact hR.beforeHost (hR.call rfl) fun _ => .require _ _
  | execSync =>
    apply hR.withDefault
    intro id
    exact hR.behindFree (hR.call rfl) fun _ => hR.verifyExec id _ _
  | execSyncWrongCommand =>
    apply hR.withDefault
    intro id
    exact hR.behindFree (hR.call rfl) fun _ => hfails rfl id _
  | startWithVolume => exact hR.withDirectory _ fun path => hR.checkVolume fixture _ path
  | startWithLinkedVolume =>
    apply hR.withDirectory
    intro path
    exact hR.withLink path fun link => hR.checkVolume fixture _ link
  | startWithLog =>
    apply hR.withLog
    intro path id
    apply hR.behindFree (hR.call rfl)
    intro _
    exact hR.beforeHost (hR.waitForState id .exited) fun _ => onHost_verifyLog path _ _
  | reopenLog =>
    apply hR.withLog
    intro path id
    exact hR.behindFree (hR.call rfl) fun _ => hR.checkRotation id path
  | createExtended => exact hR.withExtended fixture hR.requireListed
  | startExtended => exact hR.withExtended fixture hR.startAndWait
  | extendedStatus =>
    apply hR.withExtended
    intro id
    exact hR.beforeHost (hR.status id) onHost_requireExtended
  | imageStatus => exact hR.withExtended fixture hR.checkImage
  | removeVolumes => exact hR.withExtended fixture hR.checkVolumeRemoval

end Harness.Budgets

end Check

end ContainerCheck
