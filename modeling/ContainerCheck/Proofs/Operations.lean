import ContainerCheck.Check.Scenario
import ContainerCheck.Proofs.Calls
import ContainerCheck.Proofs.Conduct

namespace ContainerCheck.Check

open ContainerCheck.Cri ContainerCheck.Host ContainerCheck.Poll ContainerCheck.Session

variable {σ : Type}

/-- A conduct that the steps of a harness in a sandbox keep to, host paths and renamed files
aside. -/
structure Harness.Conducts (h : Harness σ) (R : Conduct σ) : Prop extends Conduct.Composes R where
  sleeps (w : World σ) (span : Nat) : R w none (w.sleep span)
  notes (w : World σ) (deed : Deed) : deed.onHost = true → R w none (w.noteNow deed)
  draws (w : World σ) : R w none { w with drawn := w.drawn + 1 }
  calls (request : Request) : request.ofSandbox = false → Obeys R (h.call request)
  stops (id : ContainerId) (timeout : Nat) : Obeys R (h.stopContainer id timeout)

structure Harness.ConductsRenames (h : Harness σ) (R : Conduct σ) : Prop
    extends Harness.Conducts h R where
  /-- What is renamed has been read, and so is a file. -/
  renames (source target : String) (w : World σ) (content : List UInt8) :
    w.tree.read source = .ok content →
      R w (failure? (Session.rename source target w).1) (Session.rename source target w).2

structure Harness.ConductsCalls (h : Harness σ) (R : Conduct σ) : Prop
    extends Conduct.Composes R where
  calls (request : Request) : request.ofSandbox = false → Obeys R (h.call request)
  stops (id : ContainerId) (timeout : Nat) : Obeys R (h.stopContainer id timeout)
  sameCalls {w w' w'' : World σ} {outcome : Option Error} :
    R w outcome w' → w''.calls = w'.calls → R w outcome w''

namespace Harness

variable {h : Harness σ} {R : Conduct σ}

section

variable (hR : h.ConductsCalls R)
include hR

theorem ConductsCalls.silent {w w' : World σ} (hcalls : w'.calls = w.calls)
    (outcome : Option Error) : R w outcome w' :=
  hR.sameCalls (hR.of_none (hR.rest w) outcome) hcalls

theorem ConductsCalls.toConducts : h.Conducts R where
  toComposes := hR.toComposes
  sleeps w span := hR.silent (World.calls_sleep w span) none
  notes w _ hd := hR.silent (World.calls_noteNow w hd) none
  draws w := hR.sameCalls (hR.rest w) rfl
  calls := hR.calls
  stops := hR.stops

end

/-- What keeps to a conduct keeps to a weaker one. -/
theorem Conducts.imp {R' : Conduct σ} (hR : h.Conducts R) (hcomposes : Conduct.Composes R')
    (himp : ∀ {w w' : World σ} {outcome : Option Error}, R w outcome w' → R' w outcome w') :
    h.Conducts R' where
  toComposes := hcomposes
  sleeps w span := himp (hR.sleeps w span)
  notes w deed hdeed := himp (hR.notes w deed hdeed)
  draws w := himp (hR.draws w)
  calls request hrequest w := himp (hR.calls request hrequest w)
  stops id timeout w := himp (hR.stops id timeout w)

section

variable (hR : h.Conducts R)
include hR

theorem obeys_uniqueName (stem : String) : Obeys R (Session.uniqueName stem) := hR.draws

theorem obeys_inspect {α : Type} {deed : Deed} (hd : deed.onHost = true)
    (read : Tree → Except Error α) :
    Obeys R (Session.inspect deed read) := by
  intro w
  exact hR.of_none (hR.notes w deed hd) _

theorem obeys_readLog (path : String) : Obeys R (Session.readLog path) :=
  obeys_inspect hR rfl _

theorem obeys_pathExists (path : String) : Obeys R (Session.pathExists path) :=
  obeys_inspect hR rfl _

theorem obeys_waitFor {α : Type} {probe : Session σ α} (hprobe : Obeys R probe) (condition : String)
    (describe : α → String) (accept : α → Bool) (interval timeout : Nat) :
    Obeys R (Session.waitFor condition describe probe accept interval timeout) :=
  Obeys.waitFor hR.toComposes hR.sleeps hprobe condition describe accept interval timeout

theorem obeys_ensureImage (image : Image) : Obeys R (h.ensureImage image) := by
  apply Obeys.bind hR.toComposes (hR.calls _ rfl)
  intro status
  cases status with
  | some status => exact Obeys.pure hR.toComposes ()
  | none =>
    apply Obeys.bind hR.toComposes (hR.calls _ rfl)
    intro pulled
    exact Obeys.pure hR.toComposes ()

theorem obeys_createContainer (fixture : Fixture) (config : ContainerConfig) :
    Obeys R (h.createContainer fixture config) := by
  apply Obeys.bind hR.toComposes (obeys_ensureImage hR config.image)
  intro _
  exact hR.calls _ rfl

theorem obeys_createDefaultContainer (fixture : Fixture) (stem : String) :
    Obeys R (h.createDefaultContainer fixture stem) := by
  apply Obeys.bind hR.toComposes (obeys_uniqueName hR stem)
  intro name
  exact obeys_createContainer hR fixture _

theorem obeys_containerStatus (id : ContainerId) : Obeys R (h.containerStatus id) := hR.calls _ rfl

theorem obeys_waitForState (id : ContainerId) (state : ContainerState) :
    Obeys R (h.waitForState id state) := by
  apply Obeys.bind hR.toComposes
  · apply obeys_waitFor hR
    apply Obeys.bind hR.toComposes (obeys_containerStatus hR id)
    intro status
    exact Obeys.pure hR.toComposes status.state
  · intro _
    exact Obeys.pure hR.toComposes ()

theorem obeys_startContainer (id : ContainerId) : Obeys R (h.startContainer id) := hR.calls _ rfl

theorem obeys_startAndWait (id : ContainerId) : Obeys R (h.startAndWait id) := by
  apply Obeys.bind hR.toComposes (obeys_startContainer hR id)
  intro _
  exact obeys_waitForState hR id .running

theorem obeys_stopAndWait (id : ContainerId) : Obeys R (h.stopAndWait id) := by
  apply Obeys.bind hR.toComposes (hR.stops id _)
  intro _
  exact obeys_waitForState hR id .exited

theorem obeys_removeContainer (id : ContainerId) : Obeys R (h.removeContainer id) := hR.calls _ rfl

theorem obeys_exec (id : ContainerId) (command : List String) : Obeys R (h.exec id command) := by
  apply Obeys.bind hR.toComposes (hR.calls _ rfl)
  intro output
  exact Obeys.lift hR.toComposes _

theorem obeys_verifyExec (id : ContainerId) (command : List String) (expected : String) :
    Obeys R (h.verifyExec id command expected) := by
  apply Obeys.bind hR.toComposes (obeys_exec hR id command)
  intro printed
  exact Obeys.require hR.toComposes _ _

theorem obeys_reopenLog (id : ContainerId) : Obeys R (h.reopenLog id) := hR.calls _ rfl

theorem obeys_waitForLog (path : String) : Obeys R (h.waitForLog path) :=
  obeys_waitFor hR (obeys_readLog hR path) _ _ _ _ _

theorem obeys_verifyUnchanged (path : String) (length : Nat) :
    Obeys R (h.verifyUnchanged path length) := by
  apply Obeys.bind hR.toComposes
  · apply Obeys.hold hR.toComposes hR.sleeps
    apply Obeys.bind hR.toComposes (obeys_readLog hR path)
    intro records
    exact Obeys.pure hR.toComposes records.length
  · intro _
    exact Obeys.pure hR.toComposes ()

theorem obeys_verifyDefaultLog (path : String) : Obeys R (h.verifyDefaultLog path) := by
  apply Obeys.bind hR.toComposes (obeys_readLog hR path)
  intro records
  exact Obeys.lift hR.toComposes _

end

end Harness

end ContainerCheck.Check
