import ContainerCheck.Check.Harness
import ContainerCheck.Check.HostPath

namespace ContainerCheck.Check

open ContainerCheck.Cri ContainerCheck.Host ContainerCheck.Text

def requireMessage (records : List Log.Record) (payload : String) (stream : Log.LogStream) :
    Except Error Unit :=
  if Log.contains records payload stream then .ok ()
  else .error (.assertion ("expected log " ++ quoted payload ++ " (stream=" ++ stream.name ++
    ") not found in logs " ++ Log.describeAll records))

def verifyLog {σ : Type} (path payload : String) (stream : Log.LogStream) : Session σ Unit := do
  let records ← Session.readLog path
  Session.lift (requireMessage records payload stream)

/-- What a command printed, if it wrote nothing to its error stream. -/
def execText (command : List String) (output : ExecOutput) : Except Error String :=
  if output.stderr = [] then .ok (String.ofList (decodeLossy output.stdout))
  else .error (.assertion ("execSync " ++ quotedList command ++ " wrote to stderr: " ++
    quoted (String.ofList (decodeLossy output.stderr))))

def endingResult : Ending → Except Error Unit
  | .returned (.ok ()) => .ok ()
  | .returned (.error message) => .error (.runtime .stopContainer message)
  | .lost => .error (.runtime .stopContainer "stop call ended without a result")

def stopTimeout (id : ContainerId) (timeout : Nat) : Except Error Unit :=
  .error (.timeout ("stop container " ++ id.text) timeout "StopContainer still pending")

/-- The result of a stop whose call takes so long, and how long it was waited for. -/
def stopResult (id : ContainerId) (timeout took : Nat) : Option Ending → Except Error Unit × Nat
  | some ending =>
    if took < timeout then (endingResult ending, took) else (stopTimeout id timeout, timeout)
  | none => (stopTimeout id timeout, timeout)

namespace Harness

variable {σ : Type} (h : Harness σ)

def containerStatus (id : ContainerId) : Session σ ContainerStatus :=
  h.call (.containerStatus id)

def waitForState (id : ContainerId) (state : ContainerState) : Session σ Unit := do
  let _ ← Session.waitFor ("container " ++ id.text ++ " to reach " ++ state.wireName)
    ContainerState.name (do return (← h.containerStatus id).state) (· == state)
    h.config.statePollInterval h.config.statePollTimeout

def startContainer (id : ContainerId) : Session σ Unit := h.call (.startContainer id)

def startAndWait (id : ContainerId) : Session σ Unit := do
  h.startContainer id
  h.waitForState id .running

def stopContainer (id : ContainerId) (timeout : Nat) : Session σ Unit := fun w =>
  let answered := h.client.stop id timeout w.clock w.store
  let (result, waited) := stopResult id timeout answered.took answered.value
  (result, answered.settle waited (.stopped id timeout answered.value) w)

def stopAndWait (id : ContainerId) : Session σ Unit := do
  h.stopContainer id h.config.stopContainerTimeout
  h.waitForState id .exited

def removeContainer (id : ContainerId) : Session σ Unit := h.call (.removeContainer id)

def listContainers (id : ContainerId) : Session σ (List Container) :=
  h.call (.listContainers ⟨some id⟩)

def exec (id : ContainerId) (command : List String) : Session σ String := do
  let output ← h.call (.execSync id command h.config.execSyncTimeout)
  Session.lift (execText command output)

def verifyExec (id : ContainerId) (command : List String) (expected : String) :
    Session σ Unit := do
  let printed ← h.exec id command
  Session.require (printed == expected)
    ("stdout of execSync should be " ++ quoted expected ++ ", got " ++ quoted printed)

def verifyExecFails (id : ContainerId) (command : List String) : Session σ Unit :=
  h.callToFail (.execSync id command h.config.execSyncTimeout)

def reopenLog (id : ContainerId) : Session σ Unit := h.call (.reopenLog id)

def waitForLog (path : String) : Session σ (List Log.Record) :=
  Session.waitFor ("log output in " ++ path) Log.describeSequence (Session.readLog path)
    (fun records => !records.isEmpty) h.config.logPollInterval h.config.logPollTimeout

def verifyUnchanged (path : String) (length : Nat) : Session σ Unit := do
  let _ ← Session.hold ("record count of " ++ path) (fun (n : Nat) => toString n)
    (do return (← Session.readLog path).length) (· == length)
    h.config.logPollInterval h.config.logSteadyWindow

def verifyDefaultLog (path : String) : Session σ Unit :=
  verifyLog path (h.config.defaultLog ++ "\n") .stdout

end Harness

end ContainerCheck.Check
