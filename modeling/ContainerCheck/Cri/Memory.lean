import ContainerCheck.Cri.Client

namespace ContainerCheck.Cri

open ContainerCheck.Host ContainerCheck.Text ContainerCheck.Time

/-- What takes the place of the runtime's own answer to a call. -/
structure Override where
  /-- The call fails with this text and has no effect. -/
  error : Option String := none
  /-- How a reported status is changed. -/
  report : ContainerStatus → ContainerStatus := id
  containers : Option (List Container) := none
  output : Option ExecOutput := none
  image : Option (Option ImageStatus) := none
  /-- How long the call takes before anything else. -/
  delay : Nat := 0
  /-- The call outlasts its deadline and has no effect. -/
  hangs : Bool := false
  /-- The call ends without a result and has no effect. -/
  dies : Bool := false
  /-- The call succeeds and has no effect. -/
  ignored : Bool := false

/-- The overrides of one operation: one for every call, or one after the other. -/
inductive Plan
  | always (override : Override)
  | inTurn (overrides : List (Option Override))

structure LogWrite where
  after : Nat
  content : List UInt8

structure MemoryContainer where
  id : ContainerId
  sandbox : SandboxId
  config : ContainerConfig
  state : ContainerState
  log : Option String

structure Memory where
  images : List String := []
  sandboxes : List (SandboxId × SandboxConfig) := []
  containers : List MemoryContainer := []
  /-- The number in the next id. -/
  next : Nat := 0
  stopped : List SandboxId := []
  removed : List SandboxId := []
  pulls : Nat := 0
  script : Operation → Plan := fun _ => .inTurn []
  /-- Whether containers that only print something keep running. -/
  neverExit : Bool := false
  startWrites : Option (List LogWrite) := none
  reopenWrites : Option (List LogWrite) := none
  rotatedWrites : List LogWrite := []
  /-- The time of day at each moment of a run. -/
  wallClock : Nat → Instant := fun _ => ⟨1475713029, 669794202⟩

/-- How many numbers there are for ids; the last one is followed by zero. -/
def idNumbers : Nat := UInt64.size

def volumeImage : String := "docker.io/library/redis:alpine"

def dataVolume : Mount := ⟨"data-volume", "/var/lib/volumes/data-volume", "/data"⟩

def jsonLogLine (time : Instant) (text : String) : List UInt8 :=
  let value := Json.Value.object [("log", .string text), ("stream", .string "stdout"),
    ("time", .string (String.ofList (time.text .nine)))]
  encode (value.chars ++ ['\n'])

def taggedLogLine (time : Instant) : List UInt8 :=
  encode (time.text .nine ++ " stdout F hello World\n".toList)

def isEcho (command : List String) : Bool := command.head? == some "echo"

def ownLine (time : Instant) : List String → Option (List UInt8)
  | "echo" :: args => some (jsonLogLine time (" ".intercalate args ++ "\n"))
  | "sh" :: _ :: script :: _ =>
    if ['w', 'h', 'i', 'l', 'e'].isPrefixOf script.toList then some (taggedLogLine time) else none
  | _ => none

def appendLine (tree : Tree) (log : Option String) (line : Option (List UInt8)) :
    Except IoFault Tree :=
  match log, line with
  | some path, some line => tree.append path line
  | _, _ => .ok tree

namespace Memory

/-- The override of the next call of an operation, and the memory in which it is used up. -/
def fetch (m : Memory) (operation : Operation) : Override × Memory :=
  match m.script operation with
  | .always override => (override, m)
  | .inTurn [] => ({}, m)
  | .inTurn (override :: rest) =>
    let script := fun other => if other = operation then .inTurn rest else m.script other
    (override.getD {}, { m with script := script })

def find? (m : Memory) (id : ContainerId) : Option MemoryContainer :=
  m.containers.find? fun container => container.id == id

def update (m : Memory) (picks : MemoryContainer → Bool)
    (change : MemoryContainer → MemoryContainer) : Memory :=
  { m with containers := m.containers.map fun c => if picks c then change c else c }

def setState (m : Memory) (id : ContainerId) (state : ContainerState) : Memory :=
  m.update (fun c => c.id == id) fun c => { c with state := state }

def statusOf (c : MemoryContainer) : ContainerStatus where
  id := c.id
  state := c.state
  image := c.config.image
  quotaId := some "quota-1"
  resources := c.config.linux.bind (·.resources)
  mounts := some (c.config.mounts ++
    if c.config.image.reference = volumeImage then [dataVolume] else [])
  envs := some c.config.envs

def execute (tree : Tree) (command : List String) : Except String ExecOutput :=
  match command with
  | "echo" :: args => .ok ⟨encode (" ".intercalate args ++ "\n").toList, []⟩
  | ["ls", "-A", path] =>
    match tree.list path with
    | .ok names => .ok ⟨encode (String.join (names.map (· ++ "\n"))).toList, []⟩
    | .error fault => .error fault.message
  | _ => .error "executable file not found"

end Memory

open Memory

def Answered.keep {α : Type} (store : Store Memory) (state : Memory) (value : α) :
    Answered Memory α :=
  { value := value, store := { store with state := state } }

/-- Makes writes to a log file, those of no delay at once. -/
def Answered.write {α : Type} (answered : Answered Memory α) (now : Nat) (path : String)
    (writes : List LogWrite) : Answered Memory α :=
  writes.foldl (fun answered write =>
    let action := FileAction.append path write.content
    if write.after = 0 then
      { answered with store :=
        { answered.store with tree := action.attempt answered.store.tree } }
    else { answered with events := answered.events ++ [Event.ofAction (now + write.after) action] })
    answered

def notFound {α : Type} (kind id : String) : Except String α :=
  .error (kind ++ " " ++ id ++ " not found")

def memoryAnswer (request : Request) (now : Nat) (store : Store Memory) (override : Override)
    (m : Memory) : Answered Memory request.Answer :=
  match request with
  | .runSandbox config =>
    let id : SandboxId := ⟨"pod-" ++ toString m.next⟩
    .keep store { m with
      next := (m.next + 1) % idNumbers
      sandboxes := m.sandboxes ++ [(id, config)] } (.ok id)
  | .stopSandbox id =>
    let m := m.update (fun c => c.sandbox == id) fun c => { c with state := .exited }
    .keep store { m with stopped := m.stopped ++ [id] } (.ok ())
  | .removeSandbox id =>
    .keep store { m with
      sandboxes := m.sandboxes.filter fun s => s.1 != id
      containers := m.containers.filter fun c => c.sandbox != id
      removed := m.removed ++ [id] } (.ok ())
  | .createContainer sandbox config sandboxConfig =>
    match m.sandboxes.lookup sandbox with
    | none => .keep store m (notFound "sandbox" sandbox.text)
    | some _ =>
      if ¬ m.images.contains config.image.reference then
        .keep store m (.error ("image " ++ config.image.reference ++ " not present"))
      else
        let id : ContainerId := ⟨"ctr-" ++ toString m.next⟩
        let log := do return joinPath (← sandboxConfig.logDirectory) (← config.logPath)
        .keep store { m with
          next := (m.next + 1) % idNumbers
          containers := m.containers ++ [⟨id, sandbox, config, .created, log⟩] } (.ok id)
  | .startContainer id =>
    match m.find? id with
    | none => .keep store m (notFound "container" id.text)
    | some c =>
      if c.state ≠ .created then
        .keep store m (.error ("container " ++ id.text ++ " is " ++ c.state.wireName))
      else
        let state := if isEcho c.config.command && !m.neverExit then .exited else .running
        match c.log, m.startWrites with
        | some path, some writes =>
          (Answered.keep store (m.setState id state) (.ok ())).write now path writes
        | log, _ =>
          -- A container that cannot write its line has been started and does not go on.
          match appendLine store.tree log (ownLine (m.wallClock now) c.config.command) with
          | .error fault => .keep store (m.setState id .running) (.error fault.message)
          | .ok tree => .keep { store with tree := tree } (m.setState id state) (.ok ())
  | .removeContainer id =>
    match m.find? id with
    | none => .keep store m (notFound "container" id.text)
    | some c =>
      if c.state = .running then .keep store m (.error ("container " ++ id.text ++ " is running"))
      else .keep store { m with containers := m.containers.filter fun c => c.id != id } (.ok ())
  | .containerStatus id =>
    match m.find? id with
    | none => .keep store m (notFound "container" id.text)
    | some c => .keep store m (.ok (override.report (statusOf c)))
  | .listContainers filter =>
    let found := m.containers.filter fun c => filter.id.all (· == c.id)
    .keep store m (.ok (override.containers.getD (found.map fun c => ⟨c.id, c.sandbox, c.state⟩)))
  | .execSync id command _ =>
    match override.output, m.find? id with
    | some output, _ => .keep store m (.ok output)
    | none, none => .keep store m (notFound "container" id.text)
    | none, some c =>
      if c.state ≠ .running then
        .keep store m (.error ("container " ++ id.text ++ " is not running"))
      else .keep store m (execute store.tree command)
  | .reopenLog id =>
    match m.find? id with
    | none => .keep store m (notFound "container" id.text)
    | some c =>
      match c.log with
      | none => .keep store m (.error "container has no log path")
      | some path =>
        if override.ignored then .keep store m (.ok ())
        else
          let rotated := (Answered.keep store m (.ok ())).write now (path ++ ".new") m.rotatedWrites
          match m.reopenWrites with
          | some writes => rotated.write now path writes
          | none =>
            match rotated.store.tree.append path (taggedLogLine (m.wallClock now)) with
            | .error fault => { rotated with value := .error fault.message }
            | .ok tree => { rotated with store := { rotated.store with tree := tree } }
  | .imageStatus image =>
    let volumes := if image.reference = volumeImage then some [("/data", "")] else none
    let own := if m.images.contains image.reference then
      some ⟨"sha256:" ++ image.reference, volumes⟩ else none
    .keep store m (.ok (override.image.getD own))
  | .pullImage image =>
    let images := if m.images.contains image.reference then m.images
      else m.images ++ [image.reference]
    .keep store { m with images := images, pulls := m.pulls + 1 } (.ok image.reference)

def memoryStop (id : ContainerId) (store : Store Memory) (override : Override) (m : Memory) :
    Answered Memory (Option Ending) :=
  if override.hangs then .keep store m none
  else if override.dies then .keep store m (some .lost)
  else
    let answered : Answered Memory (Option Ending) :=
      match m.find? id with
      | none => .keep store m (some (.returned (notFound "container" id.text)))
      | some _ => .keep store (m.setState id .exited) (some (.returned (.ok ())))
    { answered with took := override.delay }

def memoryClient : Client Memory where
  answer request now store :=
    let (override, m) := store.state.fetch request.operation
    match override.error with
    | some message => .keep store m (.error message)
    | none => memoryAnswer request now store override m
  stop id _ _ store :=
    let (override, m) := store.state.fetch .stopContainer
    match override.error with
    | some message => .keep store m (some (.returned (.error message)))
    | none => memoryStop id store override m

end ContainerCheck.Cri
