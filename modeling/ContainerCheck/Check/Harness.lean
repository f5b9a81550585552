import ContainerCheck.Config
import ContainerCheck.Cri.Client
import ContainerCheck.Poll

namespace ContainerCheck.Check

open ContainerCheck.Cri ContainerCheck.Host

def testNamespace : String := "cri-test-namespace"

structure Harness (σ : Type) where
  client : Client σ
  config : Config

structure Fixture where
  id : SandboxId
  config : SandboxConfig
  /-- The log directory that goes with the fixture. -/
  ownDirectory : Option String

def Fixture.logDirectory (fixture : Fixture) : Except Error String :=
  match fixture.config.logDirectory with
  | some directory => .ok directory
  | none => .error (.config (.noLogDirectory fixture.id.text))

def runtimeResult {α : Type} (operation : Operation) : Except String α → Except Error α
  | .ok value => .ok value
  | .error message => .error (.runtime operation message)

def expectFailure {α : Type} (operation : Operation) : Except String α → Except Error Unit
  | .ok _ => .error (.unexpectedSuccess operation)
  | .error _ => .ok ()

namespace Harness

variable {σ : Type} (h : Harness σ)

def call (request : Request) : Session σ request.Value := fun w =>
  let (answer, w) := h.client.ask request w
  (runtimeResult request.operation answer, w)

def callToFail (request : Request) : Session σ Unit := fun w =>
  let (answer, w) := h.client.ask request w
  (expectFailure request.operation answer, w)

/-- Makes a call whose answer does not matter. -/
def tell (request : Request) (w : World σ) : World σ := (h.client.ask request w).2

def sandboxConfig (stem : String) (logDirectory : Option String) : Session σ SandboxConfig := do
  let name ← Session.uniqueName stem
  let uid ← Session.uniqueName ""
  return ⟨⟨name, uid, testNamespace, h.config.defaultAttempt⟩, logDirectory⟩

def runSandbox : Session σ Fixture := do
  let config ← h.sandboxConfig "create-PodSandbox-for-container-" none
  let id ← h.call (.runSandbox config)
  return ⟨id, config, none⟩

/-- Runs a sandbox with a fresh log directory, which a failure removes at once. -/
def runSandboxWithLogs : Session σ Fixture := do
  let directory ← Session.makeTemporary "podLogTest"
  Session.orDiscard directory do
    let config ← h.sandboxConfig "PodSandbox-with-log-directory-" (some directory)
    let id ← h.call (.runSandbox config)
    return ⟨id, config, some directory⟩

/-- Stops and removes a sandbox, heeding no failure, and then removes its log directory. -/
def release (fixture : Fixture) (w : World σ) : World σ :=
  let w := h.tell (.removeSandbox fixture.id) (h.tell (.stopSandbox fixture.id) w)
  match fixture.ownDirectory with
  | some directory => w.discard directory
  | none => w

/-- Does something with a sandbox, which is released in any case. -/
def withFixture {α : Type} (acquire : Session σ Fixture) (body : Fixture → Session σ α) :
    Session σ α := do
  let fixture ← acquire
  (body fixture).ensuring (h.release fixture)

def containerMetadata (name : String) : ContainerMetadata := ⟨name, h.config.defaultAttempt⟩

def ensureImage (image : Image) : Session σ Unit := do
  match ← h.call (.imageStatus image) with
  | some _ => return
  | none =>
    let _ ← h.call (.pullImage image)
    return

def createContainer (fixture : Fixture) (config : ContainerConfig) : Session σ ContainerId := do
  h.ensureImage config.image
  h.call (.createContainer fixture.id config fixture.config)

def createDefaultContainer (fixture : Fixture) (stem : String) : Session σ ContainerId := do
  let name ← Session.uniqueName stem
  h.createContainer fixture {
    metadata := h.containerMetadata name
    image := ⟨h.config.defaultImage⟩
    command := ["top"]
    linux := some {} }

end Harness

end ContainerCheck.Check
