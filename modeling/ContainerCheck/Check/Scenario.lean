import ContainerCheck.Check.Lifecycle

namespace ContainerCheck.Check

open ContainerCheck.Cri ContainerCheck.Host

inductive Scenario
  | createContainer
  | startContainer
  | stopContainer
  | removeContainer
  | execSync
  | execSyncWrongCommand
  | startWithVolume
  | startWithLinkedVolume
  | startWithLog
  | reopenLog
  | createExtended
  | startExtended
  | extendedStatus
  | imageStatus
  | removeVolumes
deriving Repr, DecidableEq

namespace Scenario

def all : List Scenario := [
  createContainer, startContainer, stopContainer, removeContainer, execSync, execSyncWrongCommand,
  startWithVolume, startWithLinkedVolume, startWithLog, reopenLog, createExtended, startExtended,
  extendedStatus, imageStatus, removeVolumes]

/-- What the scenario shows that a runtime supports. -/
def subject : Scenario → String
  | createContainer => "creating container"
  | startContainer => "starting container"
  | stopContainer => "stopping container"
  | removeContainer => "removing container"
  | execSync => "execSync"
  | execSyncWrongCommand => "execSync with wrong command"
  | startWithVolume => "starting container with volume"
  | startWithLinkedVolume => "starting container with volume when host path is a symlink"
  | startWithLog => "starting container with log"
  | reopenLog => "reopening container log"
  | createExtended => "creating extended container"
  | startExtended => "starting extended container"
  | extendedStatus => "getting container status"
  | imageStatus => "getting image status"
  | removeVolumes => "removing volumes"

def name (scenario : Scenario) : String := "runtime should support " ++ scenario.subject

end Scenario

namespace Harness

variable {σ : Type} (h : Harness σ)

def withDefaultContainer (fixture : Fixture) (stem : String) (body : ContainerId → Session σ Unit) :
    Session σ Unit := do
  let id ← h.createDefaultContainer fixture stem
  body id

def volumeConfig (stem hostPath : String) : Session σ ContainerConfig := do
  let name ← Session.uniqueName stem
  return {
    metadata := h.containerMetadata name
    image := ⟨h.config.defaultImage⟩
    command := ["sh", "-c", "top"]
    mounts := [⟨"", hostPath, hostPath⟩] }

def checkVolume (fixture : Fixture) (stem hostPath : String) : Session σ Unit := do
  let config ← h.volumeConfig stem hostPath
  let id ← h.createContainer fixture config
  h.startAndWait id
  let listing ← h.exec id ["ls", "-A", hostPath]
  Session.require (listing != "") "listing of the mounted host path should not be empty"

def logConfig (stem : String) (command : List String) : Session σ ContainerConfig := do
  let name ← Session.uniqueName stem
  return {
    metadata := h.containerMetadata name
    image := ⟨h.config.defaultImage⟩
    command := command
    logPath := some (name ++ ".log") }

def containerLog (fixture : Fixture) (config : ContainerConfig) : Except Error String := do
  match config.logPath with
  | none => .error (.config (.noLogPath config.metadata.name))
  | some path => return joinPath (← fixture.logDirectory) path

def extendedConfig : Session σ ContainerConfig := do
  let name ← Session.uniqueName "container-with-extended-test-"
  return {
    metadata := h.containerMetadata name
    image := ⟨h.config.defaultVolumeImage⟩
    command := ["sh", "-c", "top"]
    envs := [⟨"GO_VERSION", "1.9.1"⟩]
    linux := some ⟨some ⟨[("/", "10g")]⟩⟩ }

def withExtendedContainer (fixture : Fixture) (body : ContainerId → Session σ Unit) :
    Session σ Unit :=
  HostPath.withDirectory fixture.id.text fun _ => do
    let config ← h.extendedConfig
    let id ← h.createContainer fixture config
    body id

def requireListed (id : ContainerId) : Session σ Unit := do
  let containers ← h.listContainers id
  Session.require (lists containers id) "container should be created"

def requireExtended (status : ContainerStatus) : Session σ Unit := do
  Session.require status.quotaId.isSome "the quotaId of container should not be nil"
  Session.require status.resources.isSome "the resources of container should not be nil"
  Session.require status.mounts.isSome "the mounts of container should not be nil"
  Session.require status.envs.isSome "the envs of container should not be nil"

def rotatedSuffix : String := ".new"

/-- Puts a log file aside and checks that the runtime goes on in a new one. -/
def checkRotation (id : ContainerId) (path : String) : Session σ Unit := do
  let _ ← h.waitForLog path
  let rotated := path ++ rotatedSuffix
  Session.rename path rotated
  h.reopenLog id
  let present ← Session.pathExists path
  Session.require present "new container log file should be created"
  let _ ← h.waitForLog path
  let before ← Session.readLog rotated
  h.verifyUnchanged rotated before.length

def checkImage (id : ContainerId) : Session σ Unit := do
  let status ← h.containerStatus id
  match ← h.call (.imageStatus status.image) with
  | none => Session.fail (.assertion ("image " ++ status.image.reference ++ " should be present"))
  | some image => Session.require image.volumes.isSome "the volumes of image should not be nil"

def checkVolumeRemoval (id : ContainerId) : Session σ Unit := do
  let status ← h.containerStatus id
  match firstVolumeName? (status.mounts.getD []) with
  | none => Session.fail (.assertion ("container " ++ id.text ++ " has no named volume"))
  | some _ =>
    h.stopContainer id h.config.stopContainerTimeout
    h.removeContainer id

/-- Runs the sandbox of a scenario, with a log directory if its containers write logs. -/
def runSandboxFor : Scenario → Session σ Fixture
  | .startWithLog => h.runSandboxWithLogs
  | .reopenLog => h.runSandboxWithLogs
  | _ => h.runSandbox

def runIn (fixture : Fixture) : Scenario → Session σ Unit
  | .createContainer => h.withDefaultContainer fixture "container-for-create-test-" fun id => do
    h.waitForState id .created
    h.requireListed id
  | .startContainer => h.withDefaultContainer fixture "container-for-start-test-" h.startAndWait
  | .stopContainer => h.withDefaultContainer fixture "container-for-stop-test-" fun id => do
    h.startContainer id
    h.stopAndWait id
  | .removeContainer => h.withDefaultContainer fixture "container-for-remove-test-" fun id => do
    h.removeContainer id
    let containers ← h.listContainers id
    Session.require (!lists containers id) "container should be removed"
  | .execSync => h.withDefaultContainer fixture "container-for-execSync-test-" fun id => do
    h.startContainer id
    h.verifyExec id ["echo", "hello"] "hello\n"
  | .execSyncWrongCommand =>
    h.withDefaultContainer fixture "container-for-execSync-test-" fun id => do
      h.startContainer id
      h.verifyExecFails id ["not-exist-command"]
  | .startWithVolume => HostPath.withDirectory fixture.id.text fun path =>
    h.checkVolume fixture "container-with-volume-test-" path
  | .startWithLinkedVolume => HostPath.withDirectory fixture.id.text fun path =>
    HostPath.withLink path fun link =>
      h.checkVolume fixture "container-with-symlink-host-path-test-" link
  | .startWithLog => do
    let config ← h.logConfig "container-with-log-test-" ["echo", h.config.defaultLog]
    let path ← Session.lift (containerLog fixture config)
    let id ← h.createContainer fixture config
    h.startContainer id
    h.waitForState id .exited
    h.verifyDefaultLog path
  | .reopenLog => do
    let script := "while true; do echo " ++ h.config.defaultLog ++ "; sleep 1; done"
    let config ← h.logConfig "container-reopen-log-test-" ["sh", "-c", script]
    let path ← Session.lift (containerLog fixture config)
    let id ← h.createContainer fixture config
    h.startContainer id
    h.checkRotation id path
  | .createExtended => h.withExtendedContainer fixture h.requireListed
  | .startExtended => h.withExtendedContainer fixture h.startAndWait
  | .extendedStatus => h.withExtendedContainer fixture fun id => do
    let status ← h.containerStatus id
    requireExtended status
  | .imageStatus => h.withExtendedContainer fixture h.checkImage
  | .removeVolumes => h.withExtendedContainer fixture h.checkVolumeRemoval

/-- Runs a scenario. Its sandbox is released at the end, whatever came of it. -/
def run (scenario : Scenario) : Session σ Unit :=
  h.withFixture (h.runSandboxFor scenario) fun fixture => h.runIn fixture scenario

end Harness

end ContainerCheck.Check
