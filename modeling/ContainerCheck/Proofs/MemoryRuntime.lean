import ContainerCheck.Check.Lifecycle
import ContainerCheck.Cri.Memory
import ContainerCheck.Proofs.Contracts
import ContainerCheck.Proofs.SandboxCalls
import ContainerCheck.Proofs.StampForm

namespace ContainerCheck

open ContainerCheck.Cri ContainerCheck.Host ContainerCheck.Check ContainerCheck.Session

/-- A memory that answers for itself, and whose containers do what they should. Their lines can be
read because its clock shows years of four digits. -/
def Cri.Memory.Faultless (m : Memory) : Prop :=
  m.script = (fun _ => .inTurn []) ∧ m.neverExit = false ∧ m.startWrites = none ∧
    m.reopenWrites = none ∧ m.rotatedWrites = [] ∧ ∀ now, (m.wallClock now).Plain

theorem Cri.Memory.Faultless.fetch {m : Memory} (h : m.Faultless) (operation : Operation) :
    m.fetch operation = ({}, m) := by
  unfold Memory.fetch
  rw [h.1]

/-- A faultless memory and a file tree that hold just what they are said to. -/
structure Store.Shows (tree : Tree) (sandboxes : List (SandboxId × SandboxConfig))
    (containers : List MemoryContainer) (store : Store Memory) : Prop where
  images : ∀ c ∈ containers, c.config.image.reference ∈ store.state.images
  faultless : store.state.Faultless
  counted : store.state.next < idNumbers
  tree : store.tree = tree
  sandboxes : store.state.sandboxes = sandboxes
  containers : store.state.containers = containers

theorem Store.Shows.setTree {tree : Tree} {sandboxes : List (SandboxId × SandboxConfig)}
    {containers : List MemoryContainer} {store : Store Memory}
    (h : store.Shows tree sandboxes containers) (tree' : Tree) :
    ({ store with tree := tree' } : Store Memory).Shows tree' sandboxes containers :=
  ⟨h.images, h.faultless, h.counted, rfl, h.sandboxes, h.containers⟩

/-- A change of the file tree that succeeds leaves the memory as it is. -/
theorem Session.leads_changeShown {tree tree' : Tree}
    {sandboxes : List (SandboxId × SandboxConfig)} {containers : List MemoryContainer}
    {deed : Deed} {path : String} {change : Tree → Except IoFault Tree}
    (h : change tree = .ok tree') :
    Leads (Store.Shows tree sandboxes containers) (changeTree deed path change) fun _ store =>
      store.Shows tree' sandboxes containers := by
  refine leads_changeTree fun store hstore => ⟨tree', ?_, hstore.setTree _⟩
  rw [hstore.tree]
  exact h

def Cri.MemoryContainer.inState (c : MemoryContainer) (state : ContainerState) : MemoryContainer :=
  { c with state := state }

/-- A store that holds one sandbox, and no container that is not in it. -/
def Store.Hosts (trees : Tree → Prop) (fixture : Fixture) (store : Store Memory) : Prop :=
  ∃ tree containers, trees tree ∧ (∀ c ∈ containers, c.sandbox = fixture.id) ∧
    store.Shows tree [(fixture.id, fixture.config)] containers

theorem Store.Hosts.mono {trees trees' : Tree → Prop} {fixture : Fixture} {store : Store Memory}
    (h : store.Hosts trees fixture) (htrees : ∀ tree, trees tree → trees' tree) :
    store.Hosts trees' fixture := by
  obtain ⟨tree, containers, htree, hrest⟩ := h
  exact ⟨tree, containers, htrees tree htree, hrest⟩

def Check.Harness.inMemory (config : Config) : Harness Memory := ⟨memoryClient, config⟩

namespace Check.Harness

variable {config : Config} {tree : Tree} {sandboxes : List (SandboxId × SandboxConfig)}
  {containers : List MemoryContainer} {before : Store Memory → Prop}

/-- A call that is answered at once leaves the answer's store behind. -/
theorem ask_of_answer {request : Request} {w : World Memory} {answer : request.Answer}
    {store : Store Memory} (hfaultless : w.store.state.Faultless)
    (h : memoryAnswer request w.clock w.store {} w.store.state =
      { value := answer, store := store }) :
    ∃ w', memoryClient.ask request w = (answer, w') ∧ w'.pending = w.pending ∧
      w'.store = store := by
  have hanswer : memoryClient.answer request w.clock w.store =
      { value := answer, store := store } := by
    simp only [memoryClient, hfaultless.fetch]
    exact h
  unfold Client.ask
  rw [hanswer]
  exact ⟨_, rfl, rfl, rfl⟩

theorem leads_call {request : Request} {after : request.Value → Store Memory → Prop}
    (h : ∀ now store, before store → store.state.Faultless ∧ ∃ value store',
      memoryAnswer request now store {} store.state = { value := .ok value, store := store' } ∧
        after value store') :
    Leads before ((inMemory config).call request) after := by
  intro w hcalm hw
  obtain ⟨hfaultless, value, store, hanswer, hafter⟩ := h w.clock w.store hw
  obtain ⟨w', hask, hpending, rfl⟩ := ask_of_answer hfaultless hanswer
  refine ⟨value, w', ?_, hpending.trans hcalm, hafter⟩
  unfold call inMemory
  rw [hask]
  rfl

theorem leads_sandboxConfig (stem : String) (directory : Option String) :
    Leads before ((inMemory config).sandboxConfig stem directory) fun made store =>
      made.logDirectory = directory ∧ before store := by
  refine (leads_uniqueName stem).bind fun name => .of_and fun _ => ?_
  refine (leads_uniqueName "").bind fun uid => .of_and fun _ => ?_
  exact .pure fun store hstore => ⟨rfl, hstore⟩

structure IsPod (directory : Option String) (fixture : Fixture) : Prop where
  id : ∃ n < idNumbers, fixture.id = ⟨"pod-" ++ toString n⟩
  logDirectory : fixture.config.logDirectory = directory
  ownDirectory : fixture.ownDirectory = directory

theorem leads_startFixture (stem : String) (directory : Option String) :
    Leads (Store.Shows tree [] []) ((inMemory config).startFixture stem directory)
      fun fixture store =>
        IsPod directory fixture ∧ store.Shows tree [(fixture.id, fixture.config)] [] := by
  refine (leads_sandboxConfig stem directory).bind fun made => .of_and fun hmade => ?_
  have hrun : Leads (Store.Shows tree [] []) ((inMemory config).call (.runSandbox made))
      fun id store => (∃ n < idNumbers, id = ⟨"pod-" ++ toString n⟩) ∧
        store.Shows tree [(id, made)] [] := by
    refine leads_call fun now store h => ⟨h.faultless, _, _, rfl, ⟨_, h.counted, rfl⟩, ?_⟩
    have hsandboxes : store.state.sandboxes ++ [(⟨"pod-" ++ toString store.state.next⟩, made)] =
        [(⟨"pod-" ++ toString store.state.next⟩, made)] := by
      rw [h.sandboxes, List.nil_append]
    exact ⟨h.images, h.faultless, Nat.mod_lt _ (by decide), h.tree, hsandboxes, h.containers⟩
  refine hrun.bind fun id => .of_and fun hid => ?_
  exact .pure fun store h => ⟨⟨hid, hmade, rfl⟩, h⟩

/-- A sandbox that is stopped and removed takes its containers with it. -/
theorem release_store (config : Config) {fixture : Fixture} {w : World Memory}
    (hcalm : w.pending = [])
    (h : w.store.Shows tree [(fixture.id, fixture.config)] containers)
    (hinside : ∀ c ∈ containers, c.sandbox = fixture.id) :
    ∃ w', (inMemory config).tell (.removeSandbox fixture.id)
        ((inMemory config).tell (.stopSandbox fixture.id) w) = w' ∧
      w'.pending = [] ∧ w'.store.Shows tree [] [] := by
  have hstop := ask_of_answer h.faultless (rfl :
    memoryAnswer (.stopSandbox fixture.id) w.clock w.store {} w.store.state = _)
  obtain ⟨w₁, hask₁, hpending₁, hstore₁⟩ := hstop
  have hfaultless₁ : w₁.store.state.Faultless := by
    rw [hstore₁]
    exact h.faultless
  have hremove := ask_of_answer hfaultless₁ (rfl :
    memoryAnswer (.removeSandbox fixture.id) w₁.clock w₁.store {} w₁.store.state = _)
  obtain ⟨w₂, hask₂, hpending₂, hstore₂⟩ := hremove
  refine ⟨w₂, ?_, hpending₂.trans (hpending₁.trans hcalm), ?_⟩
  · unfold tell inMemory
    rw [hask₁, hask₂]
  · rw [hstore₂, hstore₁]
    refine ⟨by simp, h.faultless, h.counted, h.tree, ?_, ?_⟩
    · simp [Memory.update, h.sandboxes]
    · simp only [Memory.update, h.containers, List.filter_map, List.map_eq_nil_iff,
        List.filter_eq_nil_iff]
      intro c hc
      simp [hinside c hc]

def logOf (sandbox : SandboxConfig) (container : ContainerConfig) : Option String := do
  return joinPath (← sandbox.logDirectory) (← container.logPath)

theorem leads_ensureImage (image : Image) :
    Leads (Store.Shows tree sandboxes []) ((inMemory config).ensureImage image) fun _ store =>
      image.reference ∈ store.state.images ∧ store.Shows tree sandboxes [] := by
  have hstatus : Leads (Store.Shows tree sandboxes [])
      ((inMemory config).call (.imageStatus image)) fun status store =>
        (status ≠ none → image.reference ∈ store.state.images) ∧
          store.Shows tree sandboxes [] := by
    refine leads_call fun now store h => ⟨h.faultless, _, _, rfl, ?_, h⟩
    intro hsome
    by_contra hmissing
    simp [hmissing] at hsome
  have hpull : Leads (Store.Shows tree sandboxes [])
      ((inMemory config).call (.pullImage image)) fun _ store =>
        image.reference ∈ store.state.images ∧ store.Shows tree sandboxes [] := by
    refine leads_call fun now store h => ⟨h.faultless, _, _, rfl, ?_, ?_⟩
    · dsimp only
      split
      · next hpresent => exact List.contains_iff_mem.mp hpresent
      · exact List.mem_append_right _ (List.mem_singleton_self _)
    · exact ⟨by simp, h.faultless, h.counted, h.tree, h.sandboxes, h.containers⟩
  refine hstatus.bind fun status => ?_
  cases status with
  | some status => exact .pure fun store h => ⟨h.1 (by simp), h.2⟩
  | none =>
    have hdone : Leads (fun store => image.reference ∈ store.state.images ∧
        store.Shows tree sandboxes []) (Pure.pure () : Session Memory Unit) fun _ store =>
          image.reference ∈ store.state.images ∧ store.Shows tree sandboxes [] :=
      .pure fun _ h => h
    exact fun w hcalm hw => hpull.bind (fun _ => hdone) w hcalm hw.2

theorem leads_createContainer (fixture : Fixture) (container : ContainerConfig) :
    Leads (Store.Shows tree [(fixture.id, fixture.config)] [])
      ((inMemory config).createContainer fixture container) fun id store =>
        store.Shows tree [(fixture.id, fixture.config)]
          [⟨id, fixture.id, container, .created, logOf fixture.config container⟩] := by
  refine (leads_ensureImage container.image).bind fun _ => leads_call fun now store h => ?_
  obtain ⟨himage, hstore⟩ := h
  have hsandbox : store.state.sandboxes.lookup fixture.id = some fixture.config := by
    rw [hstore.sandboxes, List.lookup_cons_self]
  let made : MemoryContainer := ⟨⟨"ctr-" ++ toString store.state.next⟩, fixture.id, container,
    .created, logOf fixture.config container⟩
  let after : Memory := { store.state with
    next := (store.state.next + 1) % idNumbers
    containers := store.state.containers ++ [made] }
  refine ⟨hstore.faultless, made.id, { store with state := after }, ?_, ?_⟩
  · simp only [memoryAnswer, hsandbox, List.contains_iff_mem.mpr himage, not_true_eq_false,
      if_false]
    rfl
  · refine ⟨?_, hstore.faultless, Nat.mod_lt _ (by decide), hstore.tree, hstore.sandboxes, ?_⟩
    · intro c hc
      rw [List.mem_singleton.mp hc]
      exact himage
    · simp [after, made, hstore.containers]

section

variable {c : MemoryContainer}

theorem find?_shown {store : Store Memory} (h : store.Shows tree sandboxes [c]) :
    store.state.find? c.id = some c := by
  simp [Memory.find?, h.containers]

theorem shows_setState {store : Store Memory} (h : store.Shows tree sandboxes [c])
    (state : ContainerState) :
    ({ store with state := store.state.setState c.id state } : Store Memory).Shows tree sandboxes
      [c.inState state] := by
  refine ⟨?_, h.faultless, h.counted, h.tree, h.sandboxes, ?_⟩
  · intro changed hchanged
    rw [List.mem_singleton.mp hchanged]
    exact h.images c (List.mem_singleton_self c)
  · simp [Memory.setState, Memory.update, MemoryContainer.inState, h.containers]

def startedState (c : MemoryContainer) : ContainerState :=
  if isEcho c.config.command then .exited else .running

theorem leads_startContainer (hcreated : c.state = .created) (hlog : c.log = none) :
    Leads (Store.Shows tree sandboxes [c]) ((inMemory config).startContainer c.id) fun _ store =>
      store.Shows tree sandboxes [c.inState (startedState c)] := by
  refine leads_call fun now store h => ⟨h.faultless, (), _, ?_, shows_setState h (startedState c)⟩
  have hexit : store.state.neverExit = false := h.faultless.2.1
  simp only [memoryAnswer, find?_shown h, hcreated, hlog, hexit, startedState, appendLine]
  simp [Answered.keep]

section

variable {path : String} (hlog : c.log = some path) {after : List UInt8 → Tree}
  (happend : ∀ content, tree.append path content = .ok (after content))
include hlog happend

theorem leads_startWriting (hcreated : c.state = .created) {line : Time.Instant → List UInt8}
    (hline : ∀ time, ownLine time c.config.command = some (line time)) :
    Leads (Store.Shows tree sandboxes [c]) ((inMemory config).startContainer c.id) fun _ store =>
      ∃ time : Time.Instant, time.Plain ∧
        store.Shows (after (line time)) sandboxes [c.inState (startedState c)] := by
  refine leads_call fun now store h => ?_
  obtain ⟨-, hexit, hstart, -, -, hclock⟩ := h.faultless
  have hwritten := happend (line (store.state.wallClock now))
  rw [← h.tree] at hwritten
  refine ⟨h.faultless, (), _, ?_, _, hclock now, (shows_setState h (startedState c)).setTree _⟩
  simp only [memoryAnswer, find?_shown h, hcreated, hlog, hexit, hstart, hline, appendLine,
    hwritten, startedState]
  simp [Answered.keep]

theorem leads_reopenLog :
    Leads (Store.Shows tree sandboxes [c]) ((inMemory config).reopenLog c.id) fun _ store =>
      ∃ time : Time.Instant, time.Plain ∧
        store.Shows (after (taggedLogLine time)) sandboxes [c] := by
  refine leads_call fun now store h => ?_
  obtain ⟨-, -, -, hreopened, hrotated, hclock⟩ := h.faultless
  have hwritten := happend (taggedLogLine (store.state.wallClock now))
  rw [← h.tree] at hwritten
  refine ⟨h.faultless, (), _, ?_, _, hclock now, h.setTree _⟩
  simp only [memoryAnswer, find?_shown h, hlog, hreopened, hrotated]
  simp [Answered.keep, Answered.write, hwritten]

end

theorem leads_containerStatus :
    Leads (Store.Shows tree sandboxes [c]) ((inMemory config).containerStatus c.id)
      fun status store => status = Memory.statusOf c ∧ store.Shows tree sandboxes [c] := by
  refine leads_call fun now store h => ⟨h.faultless, Memory.statusOf c, store, ?_, rfl, h⟩
  simp only [memoryAnswer, find?_shown h]
  rfl

theorem leads_waitForState {state : ContainerState} (h : c.state = state) :
    Leads (Store.Shows tree sandboxes [c]) ((inMemory config).waitForState c.id state) fun _ =>
      Store.Shows tree sandboxes [c] := by
  have hprobe : Leads (Store.Shows tree sandboxes [c])
      (do return (← (inMemory config).containerStatus c.id).state) fun seen store =>
        (seen == state) = true ∧ store.Shows tree sandboxes [c] := by
    refine leads_containerStatus.bind fun status => .of_and fun hstatus => .pure fun store hw => ?_
    subst hstatus
    exact ⟨by simpa [Memory.statusOf] using h, hw⟩
  exact (leads_waitFor hprobe _ _ _ _).bind fun _ => .pure fun store hw => hw

theorem leads_listContainers :
    Leads (Store.Shows tree sandboxes [c]) ((inMemory config).listContainers c.id)
      fun listed store => lists listed c.id = true ∧ store.Shows tree sandboxes [c] := by
  refine leads_call fun now store h => ⟨h.faultless, _, store, rfl, ?_, h⟩
  simp [h.containers, lists]

theorem leads_listContainers_empty (id : ContainerId) :
    Leads (Store.Shows tree sandboxes []) ((inMemory config).listContainers id)
      fun listed store => lists listed id = false ∧ store.Shows tree sandboxes [] := by
  refine leads_call fun now store h => ⟨h.faultless, _, store, rfl, ?_, h⟩
  simp [h.containers, lists]

theorem leads_removeContainer (h : c.state ≠ .running) :
    Leads (Store.Shows tree sandboxes [c]) ((inMemory config).removeContainer c.id) fun _ store =>
      store.Shows tree sandboxes [] := by
  refine leads_call fun now store hw => ?_
  let after : Memory := { store.state with
    containers := store.state.containers.filter fun other => other.id != c.id }
  refine ⟨hw.faultless, (), { store with state := after }, ?_, ?_⟩
  · simp only [memoryAnswer, find?_shown hw, if_neg h]
    rfl
  · refine ⟨by simp, hw.faultless, hw.counted, hw.tree, hw.sandboxes, ?_⟩
    simp [after, hw.containers]

theorem leads_stopContainer {timeout : Nat} (htimeout : 0 < timeout) :
    Leads (Store.Shows tree sandboxes [c]) ((inMemory config).stopContainer c.id timeout)
      fun _ store => store.Shows tree sandboxes [c.inState .exited] := by
  intro w hcalm hw
  have hstop : memoryClient.stop c.id timeout w.clock w.store =
      { value := some (.returned (.ok ()))
        store := { w.store with state := w.store.state.setState c.id .exited } } := by
    simp only [memoryClient, hw.faultless.fetch, memoryStop, find?_shown hw]
    rfl
  have hrun : ∃ w', (inMemory config).stopContainer c.id timeout w = (.ok (), w') ∧
      w'.pending = w.pending ∧
      w'.store = { w.store with state := w.store.state.setState c.id .exited } := by
    unfold Harness.stopContainer inMemory
    simp only [hstop, stopResult, if_pos htimeout]
    exact ⟨_, rfl, rfl, rfl⟩
  obtain ⟨w', hstopped, hpending, hstore⟩ := hrun
  refine ⟨(), w', hstopped, hpending.trans hcalm, ?_⟩
  rw [hstore]
  exact shows_setState hw .exited

theorem leads_exec {command : List String} {output : List UInt8} (hrunning : c.state = .running)
    (h : Memory.execute tree command = .ok ⟨output, []⟩) :
    Leads (Store.Shows tree sandboxes [c]) ((inMemory config).exec c.id command)
      fun printed store => printed = String.ofList (Text.decodeLossy output) ∧
        store.Shows tree sandboxes [c] := by
  have hcall : Leads (Store.Shows tree sandboxes [c])
      ((inMemory config).call (.execSync c.id command config.execSyncTimeout)) fun made store =>
        made = ⟨output, []⟩ ∧ store.Shows tree sandboxes [c] := by
    refine leads_call fun now store hw => ⟨hw.faultless, ⟨output, []⟩, store, ?_, rfl, hw⟩
    simp only [memoryAnswer, find?_shown hw, hrunning, hw.tree, h]
    rfl
  refine hcall.bind fun made => .of_and fun hmade => ?_
  subst hmade
  exact leads_lift fun store hw => ⟨rfl, hw⟩

theorem leads_verifyExecFails {command : List String} {message : String}
    (hrunning : c.state = .running) (h : Memory.execute tree command = .error message) :
    Leads (Store.Shows tree sandboxes [c]) ((inMemory config).verifyExecFails c.id command)
      fun _ => Store.Shows tree sandboxes [c] := by
  intro w hcalm hw
  have hanswer : memoryAnswer (.execSync c.id command config.execSyncTimeout) w.clock w.store {}
      w.store.state = { value := .error message, store := w.store } := by
    simp only [memoryAnswer, find?_shown hw, hrunning, hw.tree, h]
    rfl
  obtain ⟨w', hask, hpending, hstore⟩ := ask_of_answer hw.faultless hanswer
  refine ⟨(), w', ?_, hpending.trans hcalm, hstore ▸ hw⟩
  unfold verifyExecFails callToFail inMemory
  rw [hask]
  rfl

/-- The volume image has a volume. -/
theorem leads_imageStatus (himage : c.config.image.reference = volumeImage) :
    Leads (Store.Shows tree sandboxes [c])
      ((inMemory config).call (.imageStatus c.config.image)) fun status store =>
        (∃ id volumes, status = some ⟨id, some volumes⟩) ∧ store.Shows tree sandboxes [c] := by
  refine leads_call fun now store h => ⟨h.faultless, _, store, rfl, ?_, h⟩
  have hpresent := h.images c (List.mem_singleton_self c)
  have hcontains : store.state.images.contains volumeImage = true :=
    List.contains_iff_mem.mpr (himage ▸ hpresent)
  simp only [himage, hcontains, if_true, Option.getD_none]
  exact ⟨_, _, rfl⟩

end

end Check.Harness

end ContainerCheck
