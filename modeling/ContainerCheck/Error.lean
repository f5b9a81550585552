import ContainerCheck.Host.Fault
import ContainerCheck.Log.File

namespace ContainerCheck

open ContainerCheck.Text ContainerCheck.Time

inductive Operation
  | runPodSandbox
  | stopPodSandbox
  | removePodSandbox
  | createContainer
  | startContainer
  | stopContainer
  | removeContainer
  | containerStatus
  | listContainers
  | execSync
  | reopenContainerLog
  | imageStatus
  | pullImage
deriving Repr, DecidableEq

def Operation.name : Operation → String
  | runPodSandbox => "RunPodSandbox"
  | stopPodSandbox => "StopPodSandbox"
  | removePodSandbox => "RemovePodSandbox"
  | createContainer => "CreateContainer"
  | startContainer => "StartContainer"
  | stopContainer => "StopContainer"
  | removeContainer => "RemoveContainer"
  | containerStatus => "ContainerStatus"
  | listContainers => "ListContainers"
  | execSync => "ExecSync"
  | reopenContainerLog => "ReopenContainerLog"
  | imageStatus => "ImageStatus"
  | pullImage => "PullImage"

inductive ConfigFault
  | zeroInterval (poll : String)
  | longInterval (poll : String) (interval window : Nat)
  | multipleLines
  | noLogDirectory (sandbox : String)
  | noLogPath (container : String)
  /-- A fault that was found elsewhere. -/
  | stated (message : String)
deriving DecidableEq

def ConfigFault.message : ConfigFault → String
  | zeroInterval poll => poll ++ " interval must be non-zero"
  | longInterval poll interval window =>
    poll ++ " interval " ++ toString interval ++ "ms exceeds its window " ++ toString window ++ "ms"
  | multipleLines => "default_log must be a single line"
  | noLogDirectory sandbox => "sandbox " ++ sandbox ++ " has no log directory"
  | noLogPath container => "container " ++ container ++ " has no log path"
  | stated message => message

inductive Error
  | io (path : String) (fault : Host.IoFault)
  | malformed (line : String) (fault : Log.LineFault)
  | timeout (condition : String) (waited : Nat) (last : String)
  | runtime (operation : Operation) (message : String)
  | unexpectedSuccess (operation : Operation)
  | assertion (message : String)
  | config (fault : ConfigFault)
  | serialization (error : Json.Error)
  /-- A poll whose clock stands still. -/
  | endless (condition : String)

namespace Error

def message : Error → String
  | io path fault => "I/O error at " ++ path ++ ": " ++ fault.message
  | malformed line fault => "malformed log record " ++ quoted line ++ ": " ++ fault.message
  | timeout condition waited last =>
    "timed out after " ++ spanText waited ++ " waiting for " ++ condition ++ "; last observed: " ++
      last
  | runtime operation message =>
    "runtime call " ++ operation.name ++ " failed: " ++ message
  | unexpectedSuccess operation =>
    "runtime call " ++ operation.name ++ " succeeded but an error was expected"
  | assertion message => "assertion failed: " ++ message
  | config fault => "invalid configuration: " ++ fault.message
  | serialization error => "serialization error: " ++ error.message
  | endless condition => "waiting for " ++ condition ++ " never ends"

/-- The text of a failure, followed by the text of what caused it. -/
def chain : Error → List String
  | io path fault => [(io path fault).message, fault.message]
  | serialization error => [(serialization error).message, error.message]
  | error => [error.message]

def ofMalformed (malformed : Log.Malformed) : Error := .malformed malformed.line malformed.fault

end Error

end ContainerCheck
