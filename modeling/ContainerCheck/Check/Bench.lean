import ContainerCheck.Check.Lifecycle

namespace ContainerCheck.Check

open ContainerCheck.Cri

/-- One thing that is done with a harness. Sandboxes are told apart by the order of their runs. -/
inductive Action
  | runSandbox
  | runSandboxWithLogs
  | release (sandbox : Nat)
  | logDirectory (sandbox : Nat)
  | ensureImage (image : Image)
  | create (sandbox : Nat) (config : ContainerConfig)
  | createDefault (sandbox : Nat) (stem : String)
  | status (id : ContainerId)
  | waitForState (id : ContainerId) (state : ContainerState)
  | start (id : ContainerId)
  | startAndWait (id : ContainerId)
  | stop (id : ContainerId) (timeout : Nat)
  | stopAndWait (id : ContainerId)
  | remove (id : ContainerId)
  | reopenLog (id : ContainerId)
  | list (filter : ContainerFilter)
  | exec (id : ContainerId) (command : List String)
  | verifyExec (id : ContainerId) (command : List String) (expected : String)
  | verifyExecFails (id : ContainerId) (command : List String)
  | waitForLog (path : String)
  | verifyUnchanged (path : String) (length : Nat)
  | verifyDefaultLog (path : String)
deriving DecidableEq

inductive Reply
  | done
  | sandbox (fixture : Fixture)
  /-- Whether there was a sandbox to release. -/
  | released (present : Bool)
  | container (id : ContainerId)
  | status (status : ContainerStatus)
  | containers (containers : List Container)
  | text (text : String)
  | records (records : List Log.Record)

/-- The sandboxes of a session that have not been released, by the order of their runs. -/
structure Bench (σ : Type) where
  fixtures : List (Option Fixture) := []
  world : World σ

namespace Bench

variable {σ : Type} (h : Harness σ)

def fixture? (bench : Bench σ) (sandbox : Nat) : Option Fixture := bench.fixtures[sandbox]?.join

def acquire (bench : Bench σ) (step : Session σ Fixture) : Except Error Reply × Bench σ :=
  match step bench.world with
  | (.ok fixture, w) => (.ok (.sandbox fixture), ⟨bench.fixtures ++ [some fixture], w⟩)
  | (.error error, w) => (.error error, { bench with world := w })

def release (bench : Bench σ) (sandbox : Nat) : Except Error Reply × Bench σ :=
  match bench.fixture? sandbox with
  | none => (.ok (.released false), bench)
  | some fixture =>
    (.ok (.released true), ⟨bench.fixtures.set sandbox none, h.release fixture bench.world⟩)

def proceed {α : Type} (bench : Bench σ) (step : Session σ α) (reply : α → Reply) :
    Except Error Reply × Bench σ :=
  match step bench.world with
  | (.ok value, w) => (.ok (reply value), { bench with world := w })
  | (.error error, w) => (.error error, { bench with world := w })

/-- Takes a step in a sandbox; without the sandbox nothing happens. -/
def within {α : Type} (bench : Bench σ) (sandbox : Nat) (step : Fixture → Session σ α)
    (reply : α → Reply) : Except Error Reply × Bench σ :=
  match bench.fixture? sandbox with
  | none => (.error (.assertion ("sandbox " ++ toString sandbox ++ " is not running")), bench)
  | some fixture => bench.proceed (step fixture) reply

def perform (bench : Bench σ) : Action → Except Error Reply × Bench σ
  | .runSandbox => bench.acquire h.runSandbox
  | .runSandboxWithLogs => bench.acquire h.runSandboxWithLogs
  | .release sandbox => bench.release h sandbox
  | .logDirectory sandbox =>
    bench.within sandbox (fun fixture => Session.lift fixture.logDirectory) .text
  | .ensureImage image => bench.proceed (h.ensureImage image) fun _ => .done
  | .create sandbox config =>
    bench.within sandbox (fun fixture => h.createContainer fixture config) .container
  | .createDefault sandbox stem =>
    bench.within sandbox (fun fixture => h.createDefaultContainer fixture stem) .container
  | .status id => bench.proceed (h.containerStatus id) .status
  | .waitForState id state => bench.proceed (h.waitForState id state) fun _ => .done
  | .start id => bench.proceed (h.startContainer id) fun _ => .done
  | .startAndWait id => bench.proceed (h.startAndWait id) fun _ => .done
  | .stop id timeout => bench.proceed (h.stopContainer id timeout) fun _ => .done
  | .stopAndWait id => bench.proceed (h.stopAndWait id) fun _ => .done
  | .remove id => bench.proceed (h.removeContainer id) fun _ => .done
  | .reopenLog id => bench.proceed (h.reopenLog id) fun _ => .done
  | .list filter => bench.proceed (h.call (.listContainers filter)) .containers
  | .exec id command => bench.proceed (h.exec id command) .text
  | .verifyExec id command expected =>
    bench.proceed (h.verifyExec id command expected) fun _ => .done
  | .verifyExecFails id command => bench.proceed (h.verifyExecFails id command) fun _ => .done
  | .waitForLog path => bench.proceed (h.waitForLog path) .records
  | .verifyUnchanged path length => bench.proceed (h.verifyUnchanged path length) fun _ => .done
  | .verifyDefaultLog path => bench.proceed (h.verifyDefaultLog path) fun _ => .done

def close (bench : Bench σ) : Bench σ :=
  ⟨bench.fixtures.map fun _ => none,
    bench.fixtures.foldl (fun w fixture => fixture.elim w fun f => h.release f w) bench.world⟩

def run (bench : Bench σ) (actions : List Action) : Bench σ :=
  (actions.foldl (fun bench action => (bench.perform h action).2) bench).close h

end Bench

end ContainerCheck.Check
