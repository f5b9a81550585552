import ContainerCheck.Cri.Container
import ContainerCheck.Error

namespace ContainerCheck.Cri

inductive Request
  | runSandbox (config : SandboxConfig)
  | stopSandbox (id : SandboxId)
  | removeSandbox (id : SandboxId)
  | createContainer (sandbox : SandboxId) (config : ContainerConfig) (sandboxConfig : SandboxConfig)
  | startContainer (id : ContainerId)
  | removeContainer (id : ContainerId)
  | containerStatus (id : ContainerId)
  | listContainers (filter : ContainerFilter)
  | execSync (id : ContainerId) (command : List String) (timeout : Nat)
  | reopenLog (id : ContainerId)
  | imageStatus (image : Image)
  | pullImage (image : Image)
deriving DecidableEq

def Request.operation : Request → Operation
  | runSandbox _ => .runPodSandbox
  | stopSandbox _ => .stopPodSandbox
  | removeSandbox _ => .removePodSandbox
  | createContainer .. => .createContainer
  | startContainer _ => .startContainer
  | removeContainer _ => .removeContainer
  | containerStatus _ => .containerStatus
  | listContainers _ => .listContainers
  | execSync .. => .execSync
  | reopenLog _ => .reopenContainerLog
  | imageStatus _ => .imageStatus
  | pullImage _ => .pullImage

abbrev Request.Value : Request → Type
  | runSandbox _ => SandboxId
  | createContainer .. => ContainerId
  | containerStatus _ => ContainerStatus
  | listContainers _ => List Container
  | execSync .. => ExecOutput
  | imageStatus _ => Option ImageStatus
  | pullImage _ => String
  | _ => Unit

/-- What a call gives: its value, or the text of the runtime's failure. -/
abbrev Request.Answer (request : Request) : Type := Except String request.Value

inductive Ending
  | returned (result : Except String Unit)
  /-- The call is gone without a result. -/
  | lost

/-- A call with its answer. A call that stops a container may never end. -/
inductive Exchange
  | asked (request : Request) (answer : request.Answer)
  | stopped (id : ContainerId) (timeout : Nat) (ending : Option Ending)

def Exchange.failure? : Exchange → Option (Operation × String)
  | asked request (.error message) => some (request.operation, message)
  | stopped _ _ (some (.returned (.error message))) => some (.stopContainer, message)
  | _ => none

end ContainerCheck.Cri
