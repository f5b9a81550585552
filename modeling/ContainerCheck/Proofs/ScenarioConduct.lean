import ContainerCheck.Proofs.Budgets

namespace ContainerCheck.Check

open ContainerCheck.Cri ContainerCheck.Host ContainerCheck.Session

variable {σ : Type}

def Scenario.hasLogs : Scenario → Bool
  | startWithLog | reopenLog => true
  | _ => false

/-- A conduct that host paths keep to as well, with what is done beside them. -/
structure Harness.ConductsHosts (h : Harness σ) (R : Conduct σ) (owner : String) : Prop
    extends Harness.Conducts h R where
  fails (id : ContainerId) (command : List String) : Obeys R (h.verifyExecFails id command)
  directories {body : String → Session σ Unit} : (∀ path, Obeys R (body path)) →
    Obeys R (HostPath.withDirectory owner body)
  links {body : String → Session σ Unit} : (∀ path, Obeys R (body path)) →
    Obeys R (HostPath.withDirectory owner fun path => HostPath.withLink path body)

theorem read_of_readLog {path : String} {w w' : World σ} {records : List Log.Record}
    (h : Session.readLog path w = (.ok records, w')) :
    ∃ content, w'.tree.read path = .ok content := by
  have hresult := congrArg Prod.fst h
  have hworld : w.noteNow (.readLog path) = w' := congrArg Prod.snd h
  have htree : w'.tree = w.tree := by
    rw [← hworld]
    rfl
  rw [htree]
  simp only [Session.readLog, Session.inspect, recordsOf] at hresult
  cases heq : w.tree.read path with
  | ok content => exact ⟨content, rfl⟩
  | error fault =>
    rw [heq] at hresult
    cases hresult

namespace Harness

variable {h : Harness σ} {R : Conduct σ}

section

variable (hR : h.Conducts R)
include hR

theorem obeys_logConfig (stem : String) (command : List String) :
    Obeys R (h.logConfig stem command) := by
  apply Obeys.bind hR.toComposes (obeys_uniqueName hR stem)
  intro name
  exact Obeys.pure hR.toComposes _

/-- What follows the renaming of a log file. -/
theorem obeys_afterRename (id : ContainerId) (path rotated : String) :
    Obeys R (do
      h.reopenLog id
      let present ← Session.pathExists path
      Session.require present "new container log file should be created"
      let _ ← h.waitForLog path
      let before ← Session.readLog rotated
      h.verifyUnchanged rotated before.length) := by
  apply Obeys.bind hR.toComposes (obeys_reopenLog hR id)
  intro _
  apply Obeys.bind hR.toComposes (obeys_pathExists hR path)
  intro present
  apply Obeys.bind hR.toComposes (Obeys.require hR.toComposes _ _)
  intro _
  apply Obeys.bind hR.toComposes (obeys_waitForLog hR path)
  intro _
  apply Obeys.bind hR.toComposes (obeys_readLog hR rotated)
  intro before
  exact obeys_verifyUnchanged hR rotated before.length

theorem obeys_runIn_startWithLog (fixture : Fixture) :
    Obeys R (h.runIn fixture .startWithLog) := by
  apply Obeys.bind hR.toComposes (obeys_logConfig hR _ _)
  intro config
  apply Obeys.bind hR.toComposes (Obeys.lift hR.toComposes _)
  intro path
  apply Obeys.bind hR.toComposes (obeys_createContainer hR fixture config)
  intro id
  apply Obeys.bind hR.toComposes (obeys_startContainer hR id)
  intro _
  apply Obeys.bind hR.toComposes (obeys_waitForState hR id .exited)
  intro _
  exact obeys_verifyDefaultLog hR path

def Renames (R : Conduct σ) (path : String) : Prop :=
  ∀ (w : World σ) (content : List UInt8), w.tree.read path = .ok content →
    R w (failure? (Session.rename path (path ++ rotatedSuffix) w).1)
      (Session.rename path (path ++ rotatedSuffix) w).2

/-- A log file is renamed only once it has been read. -/
theorem obeys_checkRotation_of_renames {path : String} (hrenames : Renames R path)
    (id : ContainerId) : Obeys R (h.checkRotation id path) := by
  intro w
  apply bind_obeys hR.toComposes (obeys_waitForLog hR path w)
  intro records w' hw
  -- The wait has ended with a reading of the log, which so is a file when it is renamed.
  obtain ⟨w'', hread⟩ := probe_of_waitFor_ok hw
  obtain ⟨content, hcontent⟩ := read_of_readLog hread
  apply bind_obeys hR.toComposes (hrenames w' content hcontent)
  intro _ w''' _
  exact obeys_afterRename hR id path _ w'''

/-- The file that is renamed is the log of a container, which has a fresh name. -/
theorem obeys_runIn_reopenLog_of_renames {fixture : Fixture}
    (hrenames : ∀ (config : ContainerConfig) path n,
      config.logPath = some ("container-reopen-log-test-" ++ World.freshUuid n ++ ".log") →
        containerLog fixture config = .ok path → Renames R path) :
    Obeys R (h.runIn fixture .reopenLog) := by
  intro w
  apply bind_obeys hR.toComposes (obeys_logConfig hR _ _ w)
  intro config w' hconfig
  apply bind_obeys hR.toComposes (Obeys.lift hR.toComposes _ w')
  intro path w'' hpath
  obtain ⟨hlog, -⟩ := lift_run_eq_ok hpath
  have hrename : Renames R path := by
    cases hconfig
    exact hrenames _ path w.drawn rfl hlog
  refine Obeys.bind hR.toComposes (obeys_createContainer hR fixture config) (fun id => ?_) w''
  apply Obeys.bind hR.toComposes (obeys_startContainer hR id)
  intro _
  exact obeys_checkRotation_of_renames hR hrename id

theorem obeys_checkVolume (fixture : Fixture) (stem hostPath : String) :
    Obeys R (h.checkVolume fixture stem hostPath) := by
  apply Obeys.bind hR.toComposes
  · apply Obeys.bind hR.toComposes (obeys_uniqueName hR stem)
    intro name
    exact Obeys.pure hR.toComposes _
  intro config
  apply Obeys.bind hR.toComposes (obeys_createContainer hR fixture config)
  intro id
  apply Obeys.bind hR.toComposes (obeys_startAndWait hR id)
  intro _
  apply Obeys.bind hR.toComposes (obeys_exec hR id _)
  intro listing
  exact Obeys.require hR.toComposes _ _

end

section

variable (hR : h.ConductsRenames R)
include hR

theorem obeys_runIn_reopenLog (fixture : Fixture) : Obeys R (h.runIn fixture .reopenLog) :=
  obeys_runIn_reopenLog_of_renames hR.toConducts fun _ _ _ _ _ => hR.renames _ _

theorem obeys_runIn_of_hasLogs {scenario : Scenario} (hlogs : scenario.hasLogs = true)
    (fixture : Fixture) : Obeys R (h.runIn fixture scenario) := by
  cases scenario with
  | startWithLog => exact obeys_runIn_startWithLog hR.toConducts fixture
  | reopenLog => exact obeys_runIn_reopenLog hR fixture
  | _ => cases hlogs

end

section

variable (hR : h.Conducts R)
include hR

theorem obeys_withDefaultContainer (fixture : Fixture) (stem : String)
    {body : ContainerId → Session σ Unit} (hbody : ∀ id, Obeys R (body id)) :
    Obeys R (h.withDefaultContainer fixture stem body) :=
  Obeys.bind hR.toComposes (obeys_createDefaultContainer hR fixture stem) hbody

theorem obeys_requireListed (id : ContainerId) : Obeys R (h.requireListed id) := by
  apply Obeys.bind hR.toComposes (hR.calls _ rfl)
  intro containers
  exact Obeys.require hR.toComposes _ _

theorem obeys_requireExtended (status : ContainerStatus) :
    Obeys R (requireExtended status : Session σ Unit) := by
  have hrequire := Obeys.require (R := R) hR.toComposes
  exact Obeys.bind hR.toComposes (hrequire _ _) fun _ =>
    Obeys.bind hR.toComposes (hrequire _ _) fun _ =>
      Obeys.bind hR.toComposes (hrequire _ _) fun _ => hrequire _ _

theorem obeys_checkImage (id : ContainerId) : Obeys R (h.checkImage id) := by
  apply Obeys.bind hR.toComposes (obeys_containerStatus hR id)
  intro status
  apply Obeys.bind hR.toComposes (hR.calls _ rfl)
  intro image
  cases image with
  | none => exact Obeys.fail hR.toComposes _
  | some image => exact Obeys.require hR.toComposes _ _

theorem obeys_checkVolumeRemoval (id : ContainerId) : Obeys R (h.checkVolumeRemoval id) := by
  apply Obeys.bind hR.toComposes (obeys_containerStatus hR id)
  intro status
  cases firstVolumeName? (status.mounts.getD []) with
  | none => exact Obeys.fail hR.toComposes _
  | some name =>
    apply Obeys.bind hR.toComposes (hR.stops id _)
    intro _
    exact obeys_removeContainer hR id

end

section

variable {fixture : Fixture} (hR : h.ConductsHosts R fixture.id.text)
include hR

theorem obeys_withExtendedContainer {body : ContainerId → Session σ Unit}
    (hbody : ∀ id, Obeys R (body id)) : Obeys R (h.withExtendedContainer fixture body) := by
  apply hR.directories
  intro _
  apply Obeys.bind hR.toComposes
  · exact (obeys_uniqueName hR.toConducts _).map _
  intro config
  exact Obeys.bind hR.toComposes (obeys_createContainer hR.toConducts fixture config) hbody

/-- What a scenario without logs does in its sandbox keeps to a conduct that host paths keep to. -/
theorem obeys_runIn_of_not_hasLogs {scenario : Scenario} (hlogs : scenario.hasLogs = false) :
    Obeys R (h.runIn fixture scenario) := by
  have hC := hR.toConducts
  cases scenario with
  | createContainer =>
    exact obeys_withDefaultContainer hC fixture _ fun id =>
      Obeys.bind hC.toComposes (obeys_waitForState hC id .created) fun _ =>
        obeys_requireListed hC id
  | startContainer => exact obeys_withDefaultContainer hC fixture _ (obeys_startAndWait hC)
  | stopContainer =>
    exact obeys_withDefaultContainer hC fixture _ fun id =>
      Obeys.bind hC.toComposes (obeys_startContainer hC id) fun _ => obeys_stopAndWait hC id
  | removeContainer =>
    exact obeys_withDefaultContainer hC fixture _ fun id =>
      Obeys.bind hC.toComposes (obeys_removeContainer hC id) fun _ =>
        Obeys.bind hC.toComposes (hC.calls _ rfl) fun _ => Obeys.require hC.toComposes _ _
  | execSync =>
    exact obeys_withDefaultContainer hC fixture _ fun id =>
      Obeys.bind hC.toComposes (obeys_startContainer hC id) fun _ => obeys_verifyExec hC id _ _
  | execSyncWrongCommand =>
    exact obeys_withDefaultContainer hC fixture _ fun id =>
      Obeys.bind hC.toComposes (obeys_startContainer hC id) fun _ => hR.fails id _
  | startWithVolume => exact hR.directories fun path => obeys_checkVolume hC fixture _ path
  | startWithLinkedVolume => exact hR.links fun link => obeys_checkVolume hC fixture _ link
  | startWithLog => cases hlogs
  | reopenLog => cases hlogs
  | createExtended => exact obeys_withExtendedContainer hR (obeys_requireListed hC)
  | startExtended => exact obeys_withExtendedContainer hR (obeys_startAndWait hC)
  | extendedStatus =>
    exact obeys_withExtendedContainer hR fun id =>
      Obeys.bind hC.toComposes (obeys_containerStatus hC id) (obeys_requireExtended hC)
  | imageStatus => exact obeys_withExtendedContainer hR (obeys_checkImage hC)
  | removeVolumes => exact obeys_withExtendedContainer hR (obeys_checkVolumeRemoval hC)

end

section

variable (hR : h.ConductsCalls R)
include hR

/-- A conduct of calls is a graded one in which nothing has a price. -/
theorem ConductsCalls.budgets : h.Budgets Prices.free fun _ => R where
  toGraded := hR.toComposes.graded fun hkept halike => hR.sameCalls hkept halike.calls
  ensureImage := obeys_ensureImage hR.toConducts
  create := obeys_createContainer hR.toConducts
  call {request} hfree := hR.calls request (by cases request <;> first | rfl | cases hfree)
  status := obeys_containerStatus hR.toConducts
  waitForState := obeys_waitForState hR.toConducts
  stop := hR.stops
  waitForLog := obeys_waitForLog hR.toConducts
  verifyUnchanged := obeys_verifyUnchanged hR.toConducts

/-- What a scenario does in its sandbox keeps to a conduct of calls, if its call that must fail
does. -/
theorem obeys_runIn {scenario : Scenario} (hfails : scenario = .execSyncWrongCommand →
    ∀ id command, Obeys R (h.verifyExecFails id command)) (fixture : Fixture) :
    Obeys R (h.runIn fixture scenario) :=
  hR.budgets.runIn hfails fixture

end

end Harness

end ContainerCheck.Check
