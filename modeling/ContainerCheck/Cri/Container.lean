import ContainerCheck.Json.Shape
import ContainerCheck.Json.Value

namespace ContainerCheck.Cri

open ContainerCheck.Json (Field Shape Value Reader)

structure ContainerId where
  text : String
deriving DecidableEq, Inhabited

structure SandboxId where
  text : String
deriving DecidableEq, Inhabited

inductive ContainerState
  | created
  | running
  | exited
  | unknown
deriving DecidableEq, Inhabited

namespace ContainerState

def name : ContainerState → String
  | created => "Created"
  | running => "Running"
  | exited => "Exited"
  | unknown => "Unknown"

/-- The name of a state in the runtime's own interface. -/
def wireName : ContainerState → String
  | created => "CONTAINER_CREATED"
  | running => "CONTAINER_RUNNING"
  | exited => "CONTAINER_EXITED"
  | unknown => "CONTAINER_UNKNOWN"

def all : List ContainerState := [created, running, exited, unknown]

def read : Reader ContainerState := .variant (all.map fun state => (state.name, state))

end ContainerState

/-- Names with texts, in any order. -/
abbrev TextMap := List (String × String)

def textMapValue (map : TextMap) : Value := .object (map.map fun e => (e.1, .string e.2))

def readId : Reader ContainerId := fun text =>
  (Reader.string text).map fun (value, rest) => (⟨value⟩, rest)

def readSandboxId : Reader SandboxId := fun text =>
  (Reader.string text).map fun (value, rest) => (⟨value⟩, rest)

structure ContainerMetadata where
  name : String := ""
  attempt : Nat := 0
deriving DecidableEq, Inhabited

structure SandboxMetadata where
  name : String := ""
  uid : String := ""
  namespace_ : String := ""
  attempt : Nat := 0
deriving DecidableEq, Inhabited

structure Image where
  reference : String := ""
deriving DecidableEq, Inhabited

/-- A host path that a container sees at a path of its own. -/
structure Mount where
  name : String := ""
  hostPath : String := ""
  containerPath : String := ""
deriving DecidableEq, Inhabited

structure KeyValue where
  key : String := ""
  value : String := ""
deriving DecidableEq, Inhabited

structure LinuxResources where
  diskQuota : TextMap := []
deriving DecidableEq, Inhabited

structure LinuxConfig where
  resources : Option LinuxResources := none
deriving DecidableEq, Inhabited

structure ContainerConfig where
  metadata : ContainerMetadata := {}
  image : Image := {}
  command : List String := []
  envs : List KeyValue := []
  mounts : List Mount := []
  logPath : Option String := none
  linux : Option LinuxConfig := none
  stdin : Bool := false
  stdinOnce : Bool := false
  tty : Bool := false
deriving DecidableEq, Inhabited

structure SandboxConfig where
  metadata : SandboxMetadata := {}
  logDirectory : Option String := none
deriving DecidableEq, Inhabited

structure ContainerFilter where
  id : Option ContainerId := none
deriving DecidableEq, Inhabited

structure Container where
  id : ContainerId := ⟨""⟩
  sandbox : SandboxId := ⟨""⟩
  state : ContainerState := .created
deriving DecidableEq, Inhabited

structure ContainerStatus where
  id : ContainerId := ⟨""⟩
  state : ContainerState := .created
  image : Image := {}
  quotaId : Option String := none
  resources : Option LinuxResources := none
  mounts : Option (List Mount) := none
  envs : Option (List KeyValue) := none
deriving DecidableEq, Inhabited

structure ImageStatus where
  id : String := ""
  volumes : Option TextMap := none
deriving DecidableEq, Inhabited

structure ExecOutput where
  stdout : List UInt8 := []
  stderr : List UInt8 := []
deriving DecidableEq, Inhabited

def ContainerMetadata.shape : Shape ContainerMetadata where
  name := "ContainerMetadata"
  blank := {}
  defaulted := false
  fields := [
    .of "name" .string fun m s => { m with name := s },
    .of "attempt" .nat32 fun m n => { m with attempt := n }]

def SandboxMetadata.shape : Shape SandboxMetadata where
  name := "PodSandboxMetadata"
  blank := {}
  defaulted := false
  fields := [
    .of "name" .string fun m s => { m with name := s },
    .of "uid" .string fun m s => { m with uid := s },
    .of "namespace" .string fun m s => { m with namespace_ := s },
    .of "attempt" .nat32 fun m n => { m with attempt := n }]

def Image.shape : Shape Image where
  name := "ImageSpec"
  blank := {}
  defaulted := false
  fields := [.of "image" .string fun _ s => ⟨s⟩]

def Mount.shape : Shape Mount where
  name := "Mount"
  blank := {}
  defaulted := false
  fields := [
    .of "name" .string fun m s => { m with name := s },
    .of "host_path" .path fun m s => { m with hostPath := s },
    .of "container_path" .path fun m s => { m with containerPath := s }]

def KeyValue.shape : Shape KeyValue where
  name := "KeyValue"
  blank := {}
  defaulted := false
  fields := [
    .of "key" .string fun e s => { e with key := s },
    .of "value" .string fun e s => { e with value := s }]

def LinuxResources.shape : Shape LinuxResources where
  name := "LinuxContainerResources"
  blank := {}
  defaulted := false
  fields := [.of "disk_quota" (.map .string) fun _ quota => ⟨quota⟩]

def LinuxConfig.shape : Shape LinuxConfig where
  name := "LinuxContainerConfig"
  blank := {}
  defaulted := false
  fields := [.lax "resources" (.option LinuxResources.shape.read) fun _ r => ⟨r⟩]

def ContainerConfig.shape : Shape ContainerConfig where
  name := "ContainerConfig"
  blank := {}
  defaulted := false
  fields := [
    .of "metadata" ContainerMetadata.shape.read fun c m => { c with metadata := m },
    .of "image" Image.shape.read fun c i => { c with image := i },
    .of "command" (.list .string) fun c xs => { c with command := xs },
    .of "envs" (.list KeyValue.shape.read) fun c xs => { c with envs := xs },
    .of "mounts" (.list Mount.shape.read) fun c xs => { c with mounts := xs },
    .lax "log_path" (.option .path) fun c p => { c with logPath := p },
    .lax "linux" (.option LinuxConfig.shape.read) fun c l => { c with linux := l },
    .of "stdin" .boolean fun c b => { c with stdin := b },
    .of "stdin_once" .boolean fun c b => { c with stdinOnce := b },
    .of "tty" .boolean fun c b => { c with tty := b }]

def SandboxConfig.shape : Shape SandboxConfig where
  name := "PodSandboxConfig"
  blank := {}
  defaulted := false
  fields := [
    .of "metadata" SandboxMetadata.shape.read fun c m => { c with metadata := m },
    .lax "log_directory" (.option .path) fun c p => { c with logDirectory := p }]

def ContainerFilter.shape : Shape ContainerFilter where
  name := "ContainerFilter"
  blank := {}
  defaulted := false
  fields := [.lax "id" (.option readId) fun _ id => ⟨id⟩]

def Container.shape : Shape Container where
  name := "Container"
  blank := {}
  defaulted := false
  fields := [
    .of "id" readId fun c id => { c with id := id },
    .of "pod_sandbox_id" readSandboxId fun c id => { c with sandbox := id },
    .of "state" ContainerState.read fun c s => { c with state := s }]

def ContainerStatus.shape : Shape ContainerStatus where
  name := "ContainerStatus"
  blank := {}
  defaulted := false
  fields := [
    .of "id" readId fun s id => { s with id := id },
    .of "state" ContainerState.read fun s state => { s with state := state },
    .of "image" Image.shape.read fun s i => { s with image := i },
    .lax "quota_id" (.option .string) fun s q => { s with quotaId := q },
    .lax "resources" (.option LinuxResources.shape.read) fun s r => { s with resources := r },
    .lax "mounts" (.option (.list Mount.shape.read)) fun s m => { s with mounts := m },
    .lax "envs" (.option (.list KeyValue.shape.read)) fun s e => { s with envs := e }]

def ImageStatus.shape : Shape ImageStatus where
  name := "ImageStatus"
  blank := {}
  defaulted := false
  fields := [
    .of "id" .string fun s id => { s with id := id },
    .lax "volumes" (.option (.map .string)) fun s v => { s with volumes := v }]

def ContainerMetadata.toValue (m : ContainerMetadata) : Value :=
  .object [("name", .string m.name), ("attempt", .number m.attempt)]

def SandboxMetadata.toValue (m : SandboxMetadata) : Value := .object [
  ("name", .string m.name), ("uid", .string m.uid), ("namespace", .string m.namespace_),
  ("attempt", .number m.attempt)]

def Image.toValue (i : Image) : Value := .object [("image", .string i.reference)]

def Mount.toValue (m : Mount) : Value := .object [
  ("name", .string m.name), ("host_path", .string m.hostPath),
  ("container_path", .string m.containerPath)]

def KeyValue.toValue (e : KeyValue) : Value :=
  .object [("key", .string e.key), ("value", .string e.value)]

def LinuxResources.toValue (r : LinuxResources) : Value :=
  .object [("disk_quota", textMapValue r.diskQuota)]

def LinuxConfig.toValue (c : LinuxConfig) : Value :=
  .object [("resources", .ofOption LinuxResources.toValue c.resources)]

def ContainerConfig.toValue (c : ContainerConfig) : Value := .object [
  ("metadata", c.metadata.toValue), ("image", c.image.toValue),
  ("command", .list (c.command.map .string)), ("envs", .list (c.envs.map KeyValue.toValue)),
  ("mounts", .list (c.mounts.map Mount.toValue)), ("log_path", .ofOption .string c.logPath),
  ("linux", .ofOption LinuxConfig.toValue c.linux), ("stdin", .boolean c.stdin),
  ("stdin_once", .boolean c.stdinOnce), ("tty", .boolean c.tty)]

def SandboxConfig.toValue (c : SandboxConfig) : Value := .object [
  ("metadata", c.metadata.toValue), ("log_directory", .ofOption .string c.logDirectory)]

def ContainerId.toValue (id : ContainerId) : Value := .string id.text

def SandboxId.toValue (id : SandboxId) : Value := .string id.text

def ContainerState.toValue (s : ContainerState) : Value := .string s.name

def ContainerFilter.toValue (f : ContainerFilter) : Value :=
  .object [("id", .ofOption ContainerId.toValue f.id)]

def Container.toValue (c : Container) : Value := .object [
  ("id", c.id.toValue), ("pod_sandbox_id", c.sandbox.toValue), ("state", c.state.toValue)]

def ContainerStatus.toValue (s : ContainerStatus) : Value := .object [
  ("id", s.id.toValue), ("state", s.state.toValue), ("image", s.image.toValue),
  ("quota_id", .ofOption .string s.quotaId),
  ("resources", .ofOption LinuxResources.toValue s.resources),
  ("mounts", .ofOption (fun ms => .list (ms.map Mount.toValue)) s.mounts),
  ("envs", .ofOption (fun es => .list (es.map KeyValue.toValue)) s.envs)]

def ImageStatus.toValue (s : ImageStatus) : Value := .object [
  ("id", .string s.id), ("volumes", .ofOption textMapValue s.volumes)]

def lists (containers : List Container) (id : ContainerId) : Bool :=
  containers.any fun container => container.id == id

def firstVolumeName? (mounts : List Mount) : Option String :=
  (mounts.map Mount.name).find? (· ≠ "")

end ContainerCheck.Cri
