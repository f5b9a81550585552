import ContainerCheck.Proofs.HealthyLogs
import ContainerCheck.Proofs.ScenarioConduct

namespace ContainerCheck

open ContainerCheck.Cri ContainerCheck.Host ContainerCheck.Check ContainerCheck.Session

/-- A configuration with which every scenario can succeed. -/
structure Config.IsFit (config : Config) : Prop where
  valid : config.validate = .ok ()
  stop : 1 ≤ config.stopContainerTimeoutSecs
  volume : config.defaultVolumeImage = ({} : Config).defaultVolumeImage

/-- What every run finds, and leaves behind: an idle runtime and room on the host. -/
def Store.Rests (store : Store Memory) : Prop :=
  ∃ tree : Tree, tree.Roomy ∧ store.Shows tree [] []

namespace Check.Harness

variable {config : Config} {tree : Tree} {fixture : Fixture}

theorem leads_runIn (hfit : config.IsFit) (hr : tree.Roomy) (hpod : IsPod none fixture)
    {scenario : Scenario} (hlogs : scenario.hasLogs = false) :
    Leads (Store.Shows tree [(fixture.id, fixture.config)] [])
      ((inMemory config).runIn fixture scenario) fun _ => Store.Hosts tree.Alike fixture := by
  have howner := isScratchStem_owner hpod
  cases scenario with
  | createContainer => exact leads_runIn_createContainer config tree fixture
  | startContainer => exact leads_runIn_startContainer config tree fixture
  | stopContainer => exact leads_runIn_stopContainer config tree fixture hfit.stop
  | removeContainer => exact leads_runIn_removeContainer config tree fixture
  | execSync => exact leads_runIn_execSync config tree fixture
  | execSyncWrongCommand => exact leads_runIn_execSyncWrongCommand config tree fixture
  | startWithVolume => exact leads_runIn_startWithVolume hr howner
  | startWithLinkedVolume => exact leads_runIn_startWithLinkedVolume hr howner
  | startWithLog => cases hlogs
  | reopenLog => cases hlogs
  | createExtended => exact leads_runIn_createExtended hr howner hfit.volume
  | startExtended => exact leads_runIn_startExtended hr howner hfit.volume
  | extendedStatus => exact leads_runIn_extendedStatus hr howner hfit.volume
  | imageStatus => exact leads_runIn_imageStatus hr howner hfit.volume
  | removeVolumes => exact leads_runIn_removeVolumes hr howner hfit.volume hfit.stop

theorem leads_runIn_logged (hfit : config.IsFit) {scratch : String}
    (h : IsLogged tree scratch fixture) {scenario : Scenario} (hlogs : scenario.hasLogs = true) :
    Leads (Store.Shows (tree.put (tree.home ++ [scratch]) .directory)
        [(fixture.id, fixture.config)] [])
      ((inMemory config).runIn fixture scenario) fun _ =>
        Store.Hosts (tree.Scratch scratch) fixture := by
  have hinterval := (Config.validate_eq_ok_iff.mp hfit.valid).2.1.1
  cases scenario with
  | startWithLog => exact leads_runIn_startWithLog h
  | reopenLog => exact leads_runIn_reopenLog h hinterval
  | _ => cases hlogs

theorem leads_runSandboxWithLogs (hr : tree.Roomy) :
    Leads (Store.Shows tree [] []) (inMemory config).runSandboxWithLogs fun fixture store =>
      ∃ scratch, (IsLogged tree scratch fixture ∧
          fixture.ownDirectory = some (pathOf (tree.home ++ [scratch]))) ∧
        store.Shows (tree.put (tree.home ++ [scratch]) .directory)
          [(fixture.id, fixture.config)] [] := by
  rw [runSandboxWithLogs_eq]
  refine (leads_makeTemporary hr isScratchStem_log).bind fun directory => .of_exists fun scratch =>
    .of_and ?_
  rintro ⟨hname, rfl⟩
  refine ((leads_startFixture _ _).mono ?_).orDiscard _
  rintro fixture store ⟨hpod, hstore⟩
  exact ⟨scratch, ⟨⟨hr, hname, hpod.logDirectory⟩, hpod.ownDirectory⟩, hstore⟩

theorem leads_runQuiet (hfit : config.IsFit) (hr : tree.Roomy) {scenario : Scenario}
    (hlogs : scenario.hasLogs = false) :
    Leads (Store.Shows tree [] []) ((inMemory config).run scenario) fun _ => Store.Rests := by
  unfold run withFixture
  rw [runSandboxFor_eq, hlogs, if_neg (by decide), runSandbox_eq]
  refine (leads_startFixture _ _).bind fun fixture => .of_and fun hpod => ?_
  refine (leads_runIn hfit hr hpod hlogs).ensuring ?_
  rintro ⟨⟩ w hcalm ⟨after, containers, halike, hinside, hw⟩
  obtain ⟨w', hreleased, hcalm', hw'⟩ := release_store config hcalm hw hinside
  simp only [release, hreleased, hpod.ownDirectory]
  exact ⟨hcalm', after, hr.alike halike, hw'⟩

theorem leads_runLogged (hfit : config.IsFit) (hr : tree.Roomy) {scenario : Scenario}
    (hlogs : scenario.hasLogs = true) :
    Leads (Store.Shows tree [] []) ((inMemory config).run scenario) fun _ => Store.Rests := by
  unfold run withFixture
  rw [runSandboxFor_eq, hlogs, if_pos rfl]
  refine (leads_runSandboxWithLogs hr).bind fun fixture => .of_exists fun scratch => .of_and ?_
  rintro ⟨hlogged, hown⟩
  refine (leads_runIn_logged hfit hlogged hlogs).ensuring ?_
  rintro ⟨⟩ w hcalm ⟨after, containers, hscratch, hinside, hw⟩
  obtain ⟨w', hreleased, hcalm', hw'⟩ := release_store config hcalm hw hinside
  have hstands : tree.Scratch scratch w'.tree := by
    rw [World.tree, hw'.tree]
    exact hscratch
  obtain ⟨gone, hdiscard, halike⟩ := discard_scratch hr hlogged.name hstands
  simp only [release, hreleased, hown, hdiscard]
  exact ⟨hcalm', gone, hr.alike halike, hw'.setTree gone⟩

theorem leads_run (hfit : config.IsFit) (scenario : Scenario) :
    Leads Store.Rests ((inMemory config).run scenario) fun _ => Store.Rests := by
  refine .of_exists fun tree => .of_and fun hr => ?_
  cases hlogs : scenario.hasLogs with
  | false => exact leads_runQuiet hfit hr hlogs
  | true => exact leads_runLogged hfit hr hlogs

def runAll {σ : Type} (h : Harness σ) :
    List Scenario → World σ → List (Except Error Unit × World σ)
  | [], _ => []
  | scenario :: scenarios, w => h.run scenario w :: h.runAll scenarios (h.run scenario w).2

theorem length_runAll {σ : Type} (h : Harness σ) (scenarios : List Scenario) (w : World σ) :
    (h.runAll scenarios w).length = scenarios.length := by
  induction scenarios generalizing w with
  | nil => rfl
  | cons scenario scenarios ih => rw [runAll, List.length_cons, ih, List.length_cons]

/-- What one run keeps, any number of them keep. -/
theorem runAll_rests (hfit : config.IsFit) (scenarios : List Scenario) {w : World Memory}
    (hcalm : w.pending = []) (hw : w.store.Rests) :
    ∀ outcome ∈ (inMemory config).runAll scenarios w,
      outcome.1 = .ok () ∧ outcome.2.store.Rests := by
  induction scenarios generalizing w with
  | nil => simp [runAll]
  | cons scenario scenarios ih =>
    obtain ⟨⟨⟩, w', hrun, hcalm', hw'⟩ := leads_run hfit scenario w hcalm hw
    rw [runAll, hrun, List.forall_mem_cons]
    exact ⟨⟨rfl, hw'⟩, ih hcalm' hw'⟩

/-- Every run of every scenario succeeds, and the runtime is idle after each. -/
theorem runAll_healthy (hvalid : config.validate = .ok ())
    (hstop : 1 ≤ config.stopContainerTimeoutSecs)
    (hvolume : config.defaultVolumeImage = ({} : Config).defaultVolumeImage)
    (hroomy : tree.Roomy) {wallClock : Nat → Time.Instant} (hclock : ∀ now, (wallClock now).Plain)
    (images : List String) (scenarios : List Scenario) :
    let start := World.start tree ({ images := images, wallClock := wallClock } : Memory)
    let outcomes := runAll ⟨memoryClient, config⟩ scenarios start
    outcomes.length = scenarios.length ∧
      ∀ outcome ∈ outcomes, outcome.1 = .ok () ∧
        outcome.2.store.state.sandboxes = [] ∧ outcome.2.store.state.containers = [] := by
  intro start outcomes
  have hrests : start.store.Rests := by
    refine ⟨tree, hroomy, by simp, ⟨rfl, rfl, rfl, rfl, rfl, hclock⟩, ?_, rfl, rfl, rfl⟩
    exact Nat.two_pow_pos 64
  refine ⟨length_runAll _ scenarios start, fun outcome houtcome => ?_⟩
  obtain ⟨hok, _, _, hidle⟩ :=
    runAll_rests ⟨hvalid, hstop, hvolume⟩ scenarios rfl hrests outcome houtcome
  exact ⟨hok, hidle.sandboxes, hidle.containers⟩

/-- An empty host has room. -/
theorem roomy_empty : Tree.Roomy ⟨[], []⟩ where
  grounded :=
    { directories := fun place hplace => by
        rw [List.prefix_nil.mp hplace]
        rfl
      names := by simp }
  noNul := by decide
  room := by decide
  vacant name place _ hplace := by
    have hne : place ≠ [] := by
      rintro rfl
      simp at hplace
    exact Tree.find?_of_ne hne

/-- Half a second into a leap second, and the same in the first second after it. -/
def newYearsClock (now : Nat) : Time.Instant :=
  if now = 0 then ⟨1483228799, 1500000000⟩ else ⟨1483228800, 500000000⟩

/-- A log is rotated before and after a run whose message ends like a line does. -/
theorem runAll_healthy_rotations :
    let config : Config := { defaultLog := "say \"hi\"\r", stopContainerTimeoutSecs := 1 }
    let scenarios := [Scenario.reopenLog, .startWithLog, .removeVolumes, .reopenLog]
    let start := World.start ⟨[], []⟩
      ({ images := ["busybox:1.28"], wallClock := newYearsClock } : Memory)
    let outcomes := runAll ⟨memoryClient, config⟩ scenarios start
    config.validate = .ok () ∧ 1 ≤ config.stopContainerTimeoutSecs ∧
      config.defaultVolumeImage = ({} : Config).defaultVolumeImage ∧ Tree.Roomy ⟨[], []⟩ ∧
      (∀ now, (newYearsClock now).Plain) ∧ outcomes.length = 4 ∧
      ∀ outcome ∈ outcomes, outcome.1 = .ok () ∧
        outcome.2.store.state.sandboxes = [] ∧ outcome.2.store.state.containers = [] := by
  intro config scenarios start outcomes
  have hvalid : config.validate = .ok () := Config.validate_eq_ok_iff.mpr (by decide)
  have hclock (now : Nat) : (newYearsClock now).Plain := by
    unfold newYearsClock
    split
    · exact ⟨⟨by decide, by decide, by decide⟩, by decide⟩
    · exact ⟨⟨by decide, by decide, by decide⟩, by decide⟩
  exact ⟨hvalid, by decide, rfl, roomy_empty, hclock,
    runAll_healthy hvalid (by decide) rfl roomy_empty hclock ["busybox:1.28"] scenarios⟩

end Check.Harness

end ContainerCheck
