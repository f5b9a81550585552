import ContainerCheck.Proofs.Endings
import ContainerCheck.Proofs.LogAccounts

namespace ContainerCheck

open ContainerCheck.Cri ContainerCheck.Host ContainerCheck.Poll ContainerCheck.Session

/-- A client whose containers come and go at once, and whose sandboxes cannot be stopped. -/
def Cri.Client.stuck : Client Unit where
  answer request _ store :=
    match request with
    | .runSandbox _ => { value := .ok ⟨"sandbox"⟩, store := store }
    | .stopSandbox _ => { value := .error "busy", store := store }
    | .removeSandbox _ => { value := .ok (), store := store }
    | .imageStatus _ => { value := .ok (some {}), store := store }
    | .createContainer .. => { value := .ok ⟨"container"⟩, store := store }
    | .removeContainer _ => { value := .ok (), store := store }
    | .listContainers _ => { value := .ok [], store := store }
    | _ => { value := .error "unavailable", store := store }
  stop _ _ _ store := { value := none, store := store }

namespace Check

variable {σ : Type}

namespace Harness

section

variable (h : Harness σ)

def signs (topic : Topic) : Scenario → List (Sign σ)
  | .createContainer => [.creates topic.id fun _ _ => True,
    .reports topic.id (·.state = .created), .lists topic.id (lists · topic.id = true)]
  | .startContainer => [.creates topic.id fun _ _ => True, .starts topic.id,
    .reports topic.id (·.state = .running)]
  | .stopContainer => [.creates topic.id fun _ _ => True, .starts topic.id,
    .stops h.client topic.id, .reports topic.id (·.state = .exited)]
  | .removeContainer => [.creates topic.id fun _ _ => True, .removes topic.id,
    .lists topic.id (lists · topic.id = false)]
  | .execSync => [.creates topic.id fun _ _ => True, .starts topic.id,
    .prints topic.id ["echo", "hello"] h.config.execSyncTimeout (· = "hello\n")]
  | .execSyncWrongCommand => [.creates topic.id fun _ _ => True, .starts topic.id,
    .refuses (.execSync topic.id ["not-exist-command"] h.config.execSyncTimeout)]
  | .startWithVolume | .startWithLinkedVolume => [
    .creates topic.id fun config _ => config.mounts = [⟨"", topic.path, topic.path⟩],
    .starts topic.id, .reports topic.id (·.state = .running),
    .prints topic.id ["ls", "-A", topic.path] h.config.execSyncTimeout (· ≠ "")]
  | .startWithLog => [.creates topic.id (LogsTo topic.path), .starts topic.id,
    .reports topic.id (·.state = .exited),
    .reads topic.path (Log.contains · (h.config.defaultLog ++ "\n") .stdout = true)]
  | .reopenLog => .creates topic.id (LogsTo topic.path) :: .starts topic.id ::
    .reads topic.path (· ≠ []) :: rotationSigns topic.id topic.path
  | .createExtended => [.creates topic.id fun _ _ => True,
    .lists topic.id (lists · topic.id = true)]
  | .startExtended => [.creates topic.id fun _ _ => True, .starts topic.id,
    .reports topic.id (·.state = .running)]
  | .extendedStatus => [.creates topic.id fun _ _ => True, .reports topic.id IsExtended]
  | .imageStatus => [.creates topic.id fun _ _ => True,
    .reports topic.id (·.image = topic.image),
    .presents topic.image fun found => found.volumes.isSome = true]
  | .removeVolumes => [.creates topic.id fun _ _ => True, .reports topic.id HasVolume,
    .stops h.client topic.id, .removes topic.id]

/-- The evidence of a scenario. A log file that has been put aside must be steady, too. -/
def Evidence (scenario : Scenario) (trace : List (Note σ)) : Prop :=
  ∃ topic : Topic, Shows (h.signs topic scenario) trace ∧
    (scenario = .reopenLog → Steady topic.rotated trace)

/-- A verdict by what was done in a run: nothing that the scenario heeds failed, no wait was given
up, and the evidence was seen. -/
structure Earned (scenario : Scenario) (trace : List (Note σ)) : Prop where
  serves : ∀ note ∈ trace, Serves scenario note
  endsWaits : scenario.EndsWaits trace
  evidence : h.Evidence scenario trace

abbrev Earns (kinds : List Deed.Kind) (scenario : Scenario) (step : Session σ Unit) : Prop :=
  Accounts scenario kinds (fun _ => h.Evidence scenario) (fun trace => ¬ h.Evidence scenario trace)
    step

end

variable {h : Harness σ} {kinds : List Deed.Kind} {scenario : Scenario}

/-- What a step lacks if it fails is the key to the evidence. -/
theorem earns_of_key {keys : List (Sign σ)} {step : Session σ Unit}
    (hreopen : scenario ≠ .reopenLog)
    (hkey : ∀ topic trace, Shows (h.signs topic scenario) trace → Shows keys trace)
    (hstep : Accounts scenario kinds
      (fun _ trace => ∃ topic, Shows (h.signs topic scenario) trace) (Lacks keys) step) :
    h.Earns kinds scenario step := by
  refine hstep.mono ?_ ?_
  · rintro - trace ⟨topic, hseen⟩
    exact ⟨topic, hseen, fun heq => absurd heq hreopen⟩
  · rintro trace - hlacks ⟨topic, hseen, -⟩
    exact hlacks (hkey topic trace hseen)

theorem earns_withDefaultContainer (fixture : Fixture) (stem : String)
    {signs : ContainerId → List (Sign σ)} {key : Sign σ} (hreopen : scenario ≠ .reopenLog)
    (hkind : key.kind ∉ createKinds)
    (hsigns : ∀ id, h.signs { id := id } scenario = .creates id (fun _ _ => True) :: signs id)
    (hkey : ∀ topic trace, Shows (h.signs topic scenario) trace → Shows [key] trace)
    {body : ContainerId → Session σ Unit}
    (hbody : ∀ id, Accounts scenario kinds (fun _ => Shows (signs id)) (Lacks [key]) (body id)) :
    h.Earns (createKinds ++ kinds) scenario (h.withDefaultContainer fixture stem body) := by
  refine earns_of_key hreopen hkey ((accounts_withDefaultContainer fixture stem hkind hbody).mono ?_
    fun _ _ h => h)
  rintro - trace ⟨id, hseen⟩
  exact ⟨{ id := id }, (hsigns id).symm ▸ hseen⟩

theorem earns_createContainer (fixture : Fixture) :
    ∃ kinds, h.Earns kinds .createContainer (h.runIn fixture .createContainer) := by
  have hbody : ∀ id, Accounts .createContainer ([.call .containerStatus] ++ [.call .listContainers])
      (fun _ => Shows [.reports id (·.state = .created), .lists id (lists · id = true)])
      (Lacks [someListing fun id containers => lists containers id = true])
      (h.waitForState id .created >>= fun _ => h.requireListed id) := fun id =>
    Accounts.concluding (accounts_waitForState rfl id)
      (by decide : Deed.Kind.call .listContainers ∉ _) (fun _ => accounts_requireListed id)
      fun _ _ _ _ hstate hmore => hstate.append hmore
  refine ⟨_, earns_withDefaultContainer fixture _ (by decide)
    (by decide : Deed.Kind.call .listContainers ∉ _) (fun _ => rfl) ?_ hbody⟩
  intro topic trace hseen
  exact (Shows.last [_, _] hseen).head_mono fun _ hshown => ⟨topic.id, hshown⟩

theorem earns_startContainer (fixture : Fixture) :
    ∃ kinds, h.Earns kinds .startContainer (h.runIn fixture .startContainer) := by
  refine ⟨_, earns_withDefaultContainer fixture _ (by decide)
    (by decide : Deed.Kind.call .containerStatus ∉ _) (fun _ => rfl) ?_ (accounts_startAndWait rfl)⟩
  intro topic trace hseen
  exact (Shows.last [_, _] hseen).head_mono fun _ hshown => ⟨topic.id, hshown⟩

theorem earns_stopContainer (fixture : Fixture) :
    ∃ kinds, h.Earns kinds .stopContainer (h.runIn fixture .stopContainer) := by
  have hbody : ∀ id, Accounts .stopContainer
      ([.call .startContainer] ++ [.call .stopContainer, .call .containerStatus])
      (fun _ => Shows [.starts id, .stops h.client id, .reports id (·.state = .exited)])
      (Lacks [someReport (·.state = .exited)])
      (h.startContainer id >>= fun _ => h.stopAndWait id) := fun id =>
    Accounts.concluding (accounts_startContainer id)
      (by decide : Deed.Kind.call .containerStatus ∉ _) (fun _ => accounts_stopAndWait rfl id)
      fun _ _ _ _ hstarted hmore => hstarted.append hmore
  refine ⟨_, earns_withDefaultContainer fixture _ (by decide)
    (by decide : Deed.Kind.call .containerStatus ∉ _) (fun _ => rfl) ?_ hbody⟩
  intro topic trace hseen
  exact (Shows.last [_, _, _] hseen).head_mono fun _ hshown => ⟨topic.id, hshown⟩

theorem earns_removeContainer (fixture : Fixture) :
    ∃ kinds, h.Earns kinds .removeContainer (h.runIn fixture .removeContainer) := by
  have hbody : ∀ id, Accounts .removeContainer
      ([.call .removeContainer] ++ [.call .listContainers])
      (fun _ => Shows [.removes id, .lists id (lists · id = false)])
      (Lacks [someListing fun id containers => (!lists containers id) = true])
      (h.removeContainer id >>= fun _ => h.listContainers id >>= fun containers =>
        Session.require (!lists containers id) "container should be removed") := by
    intro id
    refine Accounts.concluding (accounts_callWell (.removeContainer id) nofun)
      (by decide : Deed.Kind.call .listContainers ∉ _) (fun _ => accounts_requireUnlisted id) ?_
    intro _ _ trace more hremoved hmore
    exact hremoved.append (Sign.answers_mono hmore fun _ => Bool.not_eq_true' _ |>.mp)
  refine ⟨_, earns_withDefaultContainer fixture _ (by decide)
    (by decide : Deed.Kind.call .listContainers ∉ _) (fun _ => rfl) ?_ hbody⟩
  intro topic trace hseen
  refine (Shows.last [_, _] hseen).head_mono ?_
  rintro note ⟨containers, hdeed, hnone⟩
  exact ⟨topic.id, containers, hdeed, (Bool.not_eq_true' _).mpr hnone⟩

theorem earns_execSync (fixture : Fixture) :
    ∃ kinds, h.Earns kinds .execSync (h.runIn fixture .execSync) := by
  have hbody : ∀ id, Accounts .execSync ([.call .startContainer] ++ [.call .execSync])
      (fun _ => Shows [.starts id,
        .prints id ["echo", "hello"] h.config.execSyncTimeout (· = "hello\n")])
      (Lacks [somePrint h.config.execSyncTimeout (fun printed => (printed == "hello\n") = true)])
      (h.startContainer id >>= fun _ => h.verifyExec id ["echo", "hello"] "hello\n") := by
    intro id
    refine Accounts.concluding (accounts_startContainer id)
      (by decide : Deed.Kind.call .execSync ∉ _)
      (fun _ => accounts_execRequire id _ (· == "hello\n") _) ?_
    intro _ _ trace more hstarted hmore
    exact hstarted.append (Sign.answers_mono hmore fun _ hprint =>
      ⟨hprint.1, beq_iff_eq.mp hprint.2⟩)
  refine ⟨_, earns_withDefaultContainer fixture _ (by decide)
    (by decide : Deed.Kind.call .execSync ∉ _) (fun _ => rfl) ?_ hbody⟩
  intro topic trace hseen
  refine (Shows.last [_, _] hseen).head_mono ?_
  rintro note ⟨output, hdeed, hquiet, hprint⟩
  exact ⟨(topic.id, ["echo", "hello"]), output, hdeed, hquiet, beq_iff_eq.mpr hprint⟩

theorem earns_execSyncWrongCommand (fixture : Fixture) :
    ∃ kinds, h.Earns kinds .execSyncWrongCommand (h.runIn fixture .execSyncWrongCommand) := by
  have hbody : ∀ id, Accounts .execSyncWrongCommand ([.call .startContainer] ++ [.call .execSync])
      (fun _ => Shows [.starts id,
        .refuses (.execSync id ["not-exist-command"] h.config.execSyncTimeout)])
      (Lacks [someRefusal h.config.execSyncTimeout])
      (h.startContainer id >>= fun _ => h.verifyExecFails id ["not-exist-command"]) := fun id =>
    Accounts.concluding (accounts_startContainer id) (by decide : Deed.Kind.call .execSync ∉ _)
      (fun _ => accounts_verifyExecFails id _) fun _ _ _ _ hstarted hmore => hstarted.append hmore
  refine ⟨_, earns_withDefaultContainer fixture _ (by decide)
    (by decide : Deed.Kind.call .execSync ∉ _) (fun _ => rfl) ?_ hbody⟩
  intro topic trace hseen
  exact (Shows.last [_, _] hseen).head_mono fun _ hshown =>
    ⟨(topic.id, ["not-exist-command"]), hshown⟩

/-- The key to the evidence of a scenario with a volume is a print that is not empty. -/
theorem print_of_volume {topic : Topic} {trace : List (Note σ)} {first second third : Sign σ}
    (hseen : Shows [first, second, third,
      .prints topic.id ["ls", "-A", topic.path] h.config.execSyncTimeout (· ≠ "")] trace) :
    Shows [somePrint h.config.execSyncTimeout (fun printed => (printed != "") = true)] trace := by
  refine (Shows.last [_, _, _] hseen).head_mono ?_
  rintro note ⟨output, hdeed, hquiet, hprint⟩
  exact ⟨(topic.id, ["ls", "-A", topic.path]), output, hdeed, hquiet, bne_iff_ne.mpr hprint⟩

theorem earns_startWithVolume (fixture : Fixture) :
    ∃ kinds, h.Earns kinds .startWithVolume (h.runIn fixture .startWithVolume) := by
  have hbody : ∀ path, Accounts .startWithVolume _
      (fun _ trace => ∃ topic, Shows (h.signs topic .startWithVolume) trace) _
      (h.checkVolume fixture "container-with-volume-test-" path) := fun path =>
    (accounts_checkVolume rfl fixture _ path).mono (fun _ _ ⟨id, hseen⟩ =>
      ⟨{ id := id, path := path }, hseen⟩) fun _ _ h => h
  refine ⟨_, earns_of_key (by decide) (fun _ _ => print_of_volume)
    (accounts_withDirectory _ ?_ (by decide : Deed.Kind.call .execSync ∉ _) hbody)⟩
  exact fun trace more ⟨topic, hseen⟩ => ⟨topic, hseen.behind trace⟩

theorem earns_startWithLinkedVolume (fixture : Fixture) :
    ∃ kinds, h.Earns kinds .startWithLinkedVolume (h.runIn fixture .startWithLinkedVolume) := by
  have hpersists : Persists fun trace : List (Note σ) =>
      ∃ topic, Shows (h.signs topic .startWithLinkedVolume) trace :=
    fun trace more ⟨topic, hseen⟩ => ⟨topic, hseen.behind trace⟩
  have hbody : ∀ link, Accounts .startWithLinkedVolume _
      (fun _ trace => ∃ topic, Shows (h.signs topic .startWithLinkedVolume) trace) _
      (h.checkVolume fixture "container-with-symlink-host-path-test-" link) := fun link =>
    (accounts_checkVolume rfl fixture _ link).mono (fun _ _ ⟨id, hseen⟩ =>
      ⟨{ id := id, path := link }, hseen⟩) fun _ _ h => h
  refine ⟨_, earns_of_key (by decide) (fun _ _ => print_of_volume)
    (accounts_withDirectory _ hpersists (by decide : Deed.Kind.call .execSync ∉ _) fun path =>
      accounts_withLink path hpersists (by decide : Deed.Kind.call .execSync ∉ _) hbody)⟩

theorem earns_startWithLog (fixture : Fixture) :
    ∃ kinds, h.Earns kinds .startWithLog (h.runIn fixture .startWithLog) := by
  have hbody : ∀ id path, Accounts .startWithLog
      ([.call .startContainer] ++ ([.call .containerStatus] ++ [.readLog]))
      (fun _ => Shows [.starts id, .reports id (·.state = .exited),
        .reads path (Log.contains · (h.config.defaultLog ++ "\n") .stdout = true)])
      (Lacks [someReads (Log.contains · (h.config.defaultLog ++ "\n") .stdout = true)])
      (h.startContainer id >>= fun _ => h.waitForState id .exited >>= fun _ =>
        h.verifyDefaultLog path) := fun id path =>
    Accounts.concluding (accounts_startContainer id) (by decide : Deed.Kind.readLog ∉ _)
      (fun _ => Accounts.concluding (accounts_waitForState rfl id)
        (by decide : Deed.Kind.readLog ∉ _) (fun _ => accounts_verifyLog (by nofun) _ _)
        fun _ _ _ _ hstate hmore => hstate.append hmore)
      fun _ _ _ _ hstarted hmore => hstarted.append hmore
  refine ⟨_, earns_of_key (by decide) ?_ (accounts_withLog fixture _ _
    (outside_lacks (by decide : Deed.Kind.readLog ∉ _)) ?_ hbody)⟩
  · intro topic trace hseen
    exact (Shows.last [_, _, _] hseen).head_mono fun _ hshown => ⟨topic.path, hshown⟩
  · intro id path trace more _ hcreated hmore
    exact ⟨{ id := id, path := path }, hcreated.append hmore⟩

theorem earns_reopenLog (fixture : Fixture) :
    ∃ kinds, h.Earns kinds .reopenLog (h.runIn fixture .reopenLog) := by
  have hbody : ∀ id path, Accounts .reopenLog ([.call .startContainer] ++ rotationKinds)
      (fun _ => Settles (path ++ rotatedSuffix)
        (.starts id :: .reads path (· ≠ []) :: rotationSigns id path))
      (Unsettled fun topic => rotationSigns topic.id topic.path)
      (h.startContainer id >>= fun _ => h.checkRotation id path) := by
    intro id path
    refine Accounts.following (accounts_startContainer id).withKinds
      (outside_unsettled fun _ => (by decide : Deed.Kind.rename ∉ _))
      (fun _ => accounts_checkRotation id path) ?_
    rintro - - trace more ⟨hkinds, hstarted⟩ ⟨hseen, hsteady⟩
    exact ⟨hstarted.append hseen, hsteady.behind
      (avoids_of_kinds hkinds (by decide : Deed.Kind.readLog ∉ _) _)⟩
  have hrun : Accounts .reopenLog (createKinds ++ ([.call .startContainer] ++ rotationKinds))
      (fun _ => h.Evidence .reopenLog) (Unsettled fun topic => rotationSigns topic.id topic.path)
      (h.runIn fixture .reopenLog) := by
    refine accounts_withLog fixture _ _
      (outside_unsettled fun _ => (by decide : Deed.Kind.rename ∉ _)) ?_ hbody
    rintro id path trace more hkinds hcreated ⟨hseen, hsteady⟩
    refine ⟨{ id := id, path := path }, hcreated.append hseen, fun _ => hsteady.behind ?_⟩
    exact avoids_of_kinds hkinds (by decide : Deed.Kind.readLog ∉ _) _
  refine ⟨_, hrun.mono (fun _ _ h => h) ?_⟩
  rintro trace - hunsettled ⟨topic, hseen, hsteady⟩
  exact hunsettled topic ⟨Shows.last [_, _, _] hseen, hsteady rfl⟩

theorem earns_withExtendedContainer (fixture : Fixture)
    {shown : ContainerId → List (Note σ) → Prop} {key : Sign σ} {keys : List (Sign σ)}
    (hreopen : scenario ≠ .reopenLog) (hhost : key.kind ∉ hostKinds)
    (hcreate : key.kind ∉ createKinds)
    (hshown : ∀ id trace more, Shows [.creates id fun _ _ => True] trace → shown id more →
      ∃ topic, Shows (h.signs topic scenario) (trace ++ more))
    (hkey : ∀ topic trace, Shows (h.signs topic scenario) trace → Shows (key :: keys) trace)
    {body : ContainerId → Session σ Unit}
    (hbody : ∀ id, Accounts scenario kinds (fun _ => shown id) (Lacks (key :: keys)) (body id)) :
    h.Earns (hostKinds ++ (createKinds ++ kinds)) scenario
      (h.withExtendedContainer fixture body) := by
  have hpersists : Persists fun trace : List (Note σ) =>
      ∃ topic, Shows (h.signs topic scenario) trace :=
    fun trace more ⟨topic, hseen⟩ => ⟨topic, hseen.behind trace⟩
  exact earns_of_key hreopen hkey
    (accounts_withExtendedContainer fixture hpersists hshown hhost hcreate hbody)

theorem earns_createExtended (fixture : Fixture) :
    ∃ kinds, h.Earns kinds .createExtended (h.runIn fixture .createExtended) := by
  refine ⟨_, earns_withExtendedContainer fixture (by decide)
    (by decide : Deed.Kind.call .listContainers ∉ _)
    (by decide : Deed.Kind.call .listContainers ∉ _) ?_ ?_ accounts_requireListed⟩
  · exact fun id _ _ hcreated hmore => ⟨{ id := id }, hcreated.append hmore⟩
  · intro topic trace hseen
    exact (Shows.last [_] hseen).head_mono fun _ hshown => ⟨topic.id, hshown⟩

theorem earns_startExtended (fixture : Fixture) :
    ∃ kinds, h.Earns kinds .startExtended (h.runIn fixture .startExtended) := by
  refine ⟨_, earns_withExtendedContainer fixture (by decide)
    (by decide : Deed.Kind.call .containerStatus ∉ _)
    (by decide : Deed.Kind.call .containerStatus ∉ _) ?_ ?_ (accounts_startAndWait rfl)⟩
  · exact fun id _ _ hcreated hmore => ⟨{ id := id }, hcreated.append hmore⟩
  · intro topic trace hseen
    exact (Shows.last [_, _] hseen).head_mono fun _ hshown => ⟨topic.id, hshown⟩

theorem earns_extendedStatus (fixture : Fixture) :
    ∃ kinds, h.Earns kinds .extendedStatus (h.runIn fixture .extendedStatus) := by
  refine ⟨_, earns_withExtendedContainer fixture (by decide)
    (by decide : Deed.Kind.call .containerStatus ∉ _)
    (by decide : Deed.Kind.call .containerStatus ∉ _) ?_ ?_ (accounts_checkExtended rfl)⟩
  · exact fun id _ _ hcreated hmore => ⟨{ id := id }, hcreated.append hmore⟩
  · intro topic trace hseen
    exact (Shows.last [_] hseen).head_mono fun _ hshown => ⟨topic.id, hshown⟩

theorem earns_imageStatus (fixture : Fixture) :
    ∃ kinds, h.Earns kinds .imageStatus (h.runIn fixture .imageStatus) := by
  refine ⟨_, earns_withExtendedContainer fixture (by decide)
    (by decide : Deed.Kind.call .containerStatus ∉ _)
    (by decide : Deed.Kind.call .containerStatus ∉ _) ?_ ?_ (accounts_checkImage rfl)⟩
  · rintro id trace more hcreated ⟨image, hmore⟩
    exact ⟨{ id := id, image := image }, hcreated.append hmore⟩
  · intro topic trace hseen
    have hreport : Shows [someReport fun _ => True, _] trace :=
      (Shows.last [_] hseen).head_mono fun note ⟨status, hdeed, _⟩ =>
        ⟨topic.id, status, hdeed, trivial⟩
    exact hreport.tail_mono fun _ hpresent => hpresent.head_mono fun _ hshown =>
      ⟨topic.image, hshown⟩

theorem earns_removeVolumes (fixture : Fixture) :
    ∃ kinds, h.Earns kinds .removeVolumes (h.runIn fixture .removeVolumes) := by
  refine ⟨_, earns_withExtendedContainer fixture (by decide)
    (by decide : Deed.Kind.call .removeContainer ∉ _)
    (by decide : Deed.Kind.call .removeContainer ∉ _) ?_ ?_ (accounts_checkVolumeRemoval rfl)⟩
  · exact fun id _ _ hcreated hmore => ⟨{ id := id }, hcreated.append hmore⟩
  · intro topic trace hseen
    exact (Shows.last [_, _, _] hseen).head_mono fun _ hshown => ⟨topic.id, hshown⟩

theorem earns_runIn (fixture : Fixture) (scenario : Scenario) :
    ∃ kinds, h.Earns kinds scenario (h.runIn fixture scenario) := by
  cases scenario with
  | createContainer => exact earns_createContainer fixture
  | startContainer => exact earns_startContainer fixture
  | stopContainer => exact earns_stopContainer fixture
  | removeContainer => exact earns_removeContainer fixture
  | execSync => exact earns_execSync fixture
  | execSyncWrongCommand => exact earns_execSyncWrongCommand fixture
  | startWithVolume => exact earns_startWithVolume fixture
  | startWithLinkedVolume => exact earns_startWithLinkedVolume fixture
  | startWithLog => exact earns_startWithLog fixture
  | reopenLog => exact earns_reopenLog fixture
  | createExtended => exact earns_createExtended fixture
  | startExtended => exact earns_startExtended fixture
  | extendedStatus => exact earns_extendedStatus fixture
  | imageStatus => exact earns_imageStatus fixture
  | removeVolumes => exact earns_removeVolumes fixture

def acquireKinds : List Deed.Kind := [.makeTemporary, .call .runPodSandbox]

theorem passes_startFixture (stem : String) (directory : Option String) :
    Passes scenario [.call .runPodSandbox] (h.startFixture stem directory) := by
  have hconfig : Passes scenario [] (h.sandboxConfig stem directory) :=
    (Passes.uniqueName stem).bind fun _ => (Passes.uniqueName "").bind fun _ => Passes.pure _
  exact hconfig.bind fun config =>
    (accounts_call (.runSandbox config) nofun).passes.bind fun _ => Passes.pure _

theorem passes_runSandboxFor (scenario : Scenario) :
    Passes scenario acquireKinds (h.runSandboxFor scenario) := by
  rw [runSandboxFor_eq]
  split
  · rw [runSandboxWithLogs_eq]
    exact (passes_makeTemporary _).bind fun directory =>
      (passes_startFixture _ (some directory)).orDiscard directory
  · rw [runSandbox_eq]
    exact (passes_startFixture _ none).widen (by decide)

def releaseKinds : List Deed.Kind := [.call .stopPodSandbox, .call .removePodSandbox]

/-- The release of a sandbox is noted, and heeded by no scenario. -/
theorem noted_release (fixture : Fixture) (w : World σ) :
    ∃ trace, w.Noted trace (h.release fixture w) ∧ OfKinds releaseKinds trace ∧
      ∀ note ∈ trace, Serves scenario note := by
  have hstop := World.Noted.ask h.client (.stopSandbox fixture.id) w
  have hremove := World.Noted.ask h.client (.removeSandbox fixture.id)
    (h.tell (.stopSandbox fixture.id) w)
  have hdropped : (h.release fixture w).notes =
      (h.tell (.removeSandbox fixture.id) (h.tell (.stopSandbox fixture.id) w)).notes := by
    unfold release
    cases fixture.ownDirectory with
    | none => rfl
    | some directory => exact World.notes_discard _ directory
  refine ⟨_, (hstop.append hremove).sameNotes hdropped, ?_, ?_⟩
  · simp [OfKinds, releaseKinds, Deed.kind, Exchange.operation, Request.operation]
  · simp [Serves, Scenario.heeds]

/-- No evidence is in what runs a sandbox and what releases it. -/
theorem kind_of_signs (topic : Topic) :
    ∀ sign ∈ h.signs topic scenario, sign.kind ∉ acquireKinds ++ releaseKinds := by
  cases scenario <;>
    simp [signs, rotationSigns, acquireKinds, releaseKinds, Sign.creates, Sign.stops, Sign.reads,
      Sign.finds, Sign.renames, Sign.refuses, Sign.reports, Sign.starts, Sign.removes,
      Sign.reopens, Sign.lists, Sign.presents, Sign.prints, Sign.answers, Request.operation]

theorem evidence_around_iff {first trace last : List (Note σ)} (hfirst : OfKinds acquireKinds first)
    (hlast : OfKinds releaseKinds last) :
    h.Evidence scenario (first ++ trace ++ last) ↔ h.Evidence scenario trace := by
  constructor
  · rintro ⟨topic, hseen, hsteady⟩
    have hacquire : ∀ sign ∈ h.signs topic scenario, sign.kind ∉ acquireKinds :=
      fun sign hsign hmem => kind_of_signs topic sign hsign (List.mem_append_left _ hmem)
    have hrelease : ∀ sign ∈ h.signs topic scenario, sign.kind ∉ releaseKinds :=
      fun sign hsign hmem => kind_of_signs topic sign hsign (List.mem_append_right _ hmem)
    refine ⟨topic, hseen.of_around hacquire hrelease hfirst hlast, fun hreopen => ?_⟩
    exact (hsteady hreopen).of_reads fun note hnote _ =>
      List.mem_append_left _ (List.mem_append_right _ hnote)
  · rintro ⟨topic, hseen, hsteady⟩
    refine ⟨topic, (hseen.behind first).before last, fun hreopen => ?_⟩
    refine (hsteady hreopen).of_reads fun note hnote hdeed => ?_
    rw [List.append_assoc, List.mem_append, List.mem_append] at hnote
    rcases hnote with hmem | hmem | hmem
    · exact absurd hdeed
        (avoids_of_kinds hfirst (by decide : Deed.Kind.readLog ∉ acquireKinds) _ note hmem)
    · exact hmem
    · exact absurd hdeed
        (avoids_of_kinds hlast (by decide : Deed.Kind.readLog ∉ releaseKinds) _ note hmem)

theorem not_evidence_of_acquireKinds {trace : List (Note σ)} (htrace : OfKinds acquireKinds trace) :
    ¬ h.Evidence scenario trace := by
  rintro ⟨topic, hseen, -⟩
  have hkinds := @kind_of_signs σ h scenario topic
  cases hsigns : h.signs topic scenario with
  | nil => cases scenario <;> cases hsigns
  | cons sign signs =>
    rw [hsigns] at hseen hkinds
    obtain ⟨note, hnote, hshown⟩ := hseen.exists_mem
    have hkind : sign.kind ∉ acquireKinds := fun hmem =>
      hkinds sign List.mem_cons_self (List.mem_append_left _ hmem)
    exact Sign.not_shownBy hkind htrace note hnote hshown

/-- What is done with a sandbox earns the verdict, once the sandbox is there. -/
theorem earned_around {fixture : Fixture} {first trace last : List (Note σ)}
    {lacks : List (Note σ) → Prop}
    (hacquired : Account scenario acquireKinds (fun _ _ => True) Anything (.ok fixture) first)
    (haccount : Account scenario kinds (fun _ => h.Evidence scenario) lacks (.ok ()) trace)
    (hreleased : OfKinds releaseKinds last) (hheedless : ∀ note ∈ last, Serves scenario note) :
    h.Earned scenario (first ++ trace ++ last) where
  serves := by
    intro note hnote
    rw [List.append_assoc, List.mem_append, List.mem_append] at hnote
    rcases hnote with hmem | hmem | hmem
    · exact hacquired.serves fixture rfl note hmem
    · exact haccount.serves () rfl note hmem
    · exact hheedless note hmem
  endsWaits := by
    have hrun := (hacquired.endsWaits fixture rfl).append (haccount.endsWaits () rfl)
    exact hrun.append (Scenario.endsWaits_of_kinds hreleased (by decide) (by decide))
  evidence := (evidence_around_iff hacquired.ofKinds hreleased).mpr (haccount.shows () rfl)

/-- A scenario succeeds if and only if it comes to an end and its verdict is earned. It does come to
an end if there is a pause between two probes. -/
theorem run_eq_ok_iff_earned (h : Harness σ) (scenario : Scenario) (w : World σ) :
    (0 < h.config.statePollInterval → 0 < h.config.logPollInterval →
      Concludes (failure? (h.run scenario w).1)) ∧
    ∃ trace, w.Noted trace (h.run scenario w).2 ∧
      ((h.run scenario w).1 = .ok () ↔
        Concludes (failure? (h.run scenario w).1) ∧ h.Earned scenario trace) := by
  refine ⟨fun hstate hlog => concludes_run hstate hlog scenario w, ?_⟩
  obtain ⟨first, hfirst, hacquired⟩ := passes_runSandboxFor (h := h) scenario w
  unfold run
  rw [withFixture_run]
  rcases heq : h.runSandboxFor scenario w with ⟨result, w'⟩
  rw [heq] at hfirst hacquired
  cases result with
  | error error =>
    -- There is no sandbox, so nothing of what the scenario checks has been done.
    refine ⟨first, hfirst, iff_of_false (fun hok => nomatch hok) ?_⟩
    rintro ⟨-, hearned⟩
    exact not_evidence_of_acquireKinds hacquired.ofKinds hearned.evidence
  | ok fixture =>
    obtain ⟨kinds, hearns⟩ := earns_runIn (h := h) fixture scenario
    obtain ⟨trace, htrace, haccount⟩ := hearns w'
    obtain ⟨last, hlast, hreleased, hheedless⟩ :=
      @noted_release σ h scenario fixture (h.runIn fixture scenario w').2
    refine ⟨first ++ trace ++ last, (hfirst.append htrace).append hlast, ?_⟩
    dsimp only
    -- The release is heeded by no scenario, so what is done with the sandbox decides.
    generalize (h.runIn fixture scenario w').1 = result at haccount
    constructor
    · rintro rfl
      exact ⟨concludes_none, earned_around hacquired haccount hreleased hheedless⟩
    · rintro ⟨hconcludes, hearned⟩
      cases result with
      | ok value => rfl
      | error error =>
        have hlacks := haccount.lacking error rfl hconcludes
        exact absurd ((evidence_around_iff hacquired.ofKinds hreleased).mp hearned.evidence) hlacks

/-- A scenario does not need its sandbox to be stopped. -/
theorem run_stuck :
    let h : Harness Unit := ⟨.stuck, {}⟩
    let w := World.start ⟨[], []⟩ ()
    (h.run .removeContainer w).1 = .ok () ∧ ∃ note ∈ (h.run .removeContainer w).2.notes,
      note.deed = .call (.asked (.stopSandbox ⟨"sandbox"⟩) (.error "busy")) ∧ ¬ note.WentWell := by
  intro h w
  have hnotes : (h.run .removeContainer w).2.notes = _ ::
      ⟨0, w.store, .call (.asked (.stopSandbox ⟨"sandbox"⟩) (.error "busy"))⟩ :: _ := rfl
  refine ⟨rfl, _, hnotes ▸ List.mem_cons_of_mem _ List.mem_cons_self, rfl, ?_⟩
  rintro ⟨value, hvalue⟩
  cases hvalue

end Harness

end Check

end ContainerCheck
