import ContainerCheck.Proofs.HostPaths
import ContainerCheck.Proofs.LogAccounts
import ContainerCheck.Proofs.Teardown

namespace ContainerCheck

open ContainerCheck.Cri ContainerCheck.Host ContainerCheck.Session

variable {σ : Type}

def Call.mountedPaths (call : Call σ) : List String :=
  match call.exchange with
  | .asked (.createContainer _ config _) _ => config.mounts.map Mount.hostPath
  | _ => []

theorem Call.operation_of_mountedPaths {call : Call σ} {path : String}
    (h : path ∈ call.mountedPaths) : call.exchange.operation = .createContainer := by
  unfold mountedPaths at h
  split at h
  · next heq => rw [heq]; rfl
  · cases h

theorem Note.deed_of_call? {note : Note σ} {call : Call σ} (h : note.call? = some call) :
    note.deed = .call call.exchange := by
  unfold Note.call? at h
  split at h
  · next heq =>
    cases h
    exact heq
  · cases h

theorem World.Noted.made {w w' : World σ} {trace : List (Note σ)} (h : w.Noted trace w') :
    w.Made (trace.filterMap Note.call?) w' := by
  unfold World.Made World.calls
  rw [h, List.filterMap_append, List.filterMap_reverse]

/-- A client that has every image, runs sandboxes, creates containers and fails in all else. -/
def Cri.Client.startless : Client Unit where
  answer request _ store :=
    match request with
    | .runSandbox _ => { value := .ok ⟨"sandbox"⟩, store := store }
    | .imageStatus image => { value := .ok (some ⟨image.reference, none⟩), store := store }
    | .createContainer .. => { value := .ok ⟨"container"⟩, store := store }
    | _ => { value := .error "unavailable", store := store }
  stop _ _ _ store := { value := none, store := store }

namespace Check

def Mounting (paths : List String) : Conduct σ := fun w _ w' =>
  ∃ made, w.Made made w' ∧ ∀ call ∈ made, ∀ path ∈ call.mountedPaths, path ∈ paths

section

variable {paths : List String} {kinds : List Deed.Kind}

theorem mounting_composes : Conduct.Composes (Mounting paths : Conduct σ) where
  rest w := ⟨[], .nil rfl, by simp⟩
  andThen := by
    rintro w w' w'' outcome ⟨made, hmade, hmounts⟩ ⟨more, hmore, hmounts'⟩
    refine ⟨made ++ more, hmade.append hmore, ?_⟩
    intro call hcall
    rcases List.mem_append.mp hcall with hmem | hmem
    · exact hmounts call hmem
    · exact hmounts' call hmem
  giveUp _ h := h

/-- A step that creates no container. -/
theorem mounting_of_passes {α : Type} (scenario : Scenario) {step : Session σ α}
    (hstep : Passes scenario kinds step) (hkinds : Deed.Kind.call .createContainer ∉ kinds) :
    Obeys (Mounting paths) step := by
  intro w
  obtain ⟨trace, hnoted, haccount⟩ := hstep w
  refine ⟨_, hnoted.made, ?_⟩
  intro call hcall path hpath
  obtain ⟨note, hnote, hnoteCall⟩ := List.mem_filterMap.mp hcall
  have hkind := haccount.ofKinds note hnote
  rw [Note.deed_of_call? hnoteCall, Deed.kind, Call.operation_of_mountedPaths hpath] at hkind
  exact absurd hkind hkinds

theorem mounting_ensuring {α : Type} {step : Session σ α} (hstep : Obeys (Mounting paths) step)
    {cleanup : World σ → World σ} (hcleanup : ∀ w, (cleanup w).calls = w.calls) :
    Obeys (Mounting paths) (step.ensuring cleanup) := by
  intro w
  obtain ⟨made, hmade, hmounts⟩ := hstep w
  exact ⟨made, hmade.sameCalls (hcleanup _), hmounts⟩

/-- A configuration is made up with a fresh name. -/
theorem mounting_configured {stem : String} {config : String → ContainerConfig}
    {next : ContainerConfig → Session σ Unit}
    (hnext : ∀ name, Obeys (Mounting paths) (next (config name))) :
    Obeys (Mounting paths)
      ((Session.uniqueName stem >>= fun name => Pure.pure (config name)) >>= next) := by
  rw [bind_assoc_run]
  exact Obeys.bind mounting_composes
    (mounting_of_passes .createContainer (Passes.uniqueName stem) (by decide)) hnext

end

namespace Harness

variable {h : Harness σ} {kinds : List Deed.Kind}

theorem mounting_createContainer (fixture : Fixture) {config : ContainerConfig}
    {paths : List String} (hpaths : config.mounts.map Mount.hostPath = paths) :
    Obeys (Mounting paths) (h.createContainer fixture config) := by
  refine Obeys.bind mounting_composes
    (mounting_of_passes .createContainer (passes_ensureImage config.image)
      (by decide)) fun _ => ?_
  intro w
  have hmade := World.Made.ask h.client
    (.createContainer fixture.id config fixture.config) w
  refine ⟨_, hmade, List.forall_mem_singleton.mpr ?_⟩
  intro path hpath
  exact hpaths ▸ hpath

/-- A container that is created, and what is done with it. -/
theorem mounting_created (scenario : Scenario) (fixture : Fixture) {config : ContainerConfig}
    {paths : List String} (hpaths : config.mounts.map Mount.hostPath = paths)
    {body : ContainerId → Session σ Unit} (hbody : ∀ id, Passes scenario kinds (body id))
    (hkinds : Deed.Kind.call .createContainer ∉ kinds) :
    Obeys (Mounting paths) (h.createContainer fixture config >>= body) :=
  Obeys.bind mounting_composes (mounting_createContainer fixture hpaths) fun id =>
    mounting_of_passes scenario (hbody id) hkinds

theorem mounting_withDefaultContainer (scenario : Scenario) (fixture : Fixture) (stem : String)
    {body : ContainerId → Session σ Unit} (hbody : ∀ id, Passes scenario kinds (body id))
    (hkinds : Deed.Kind.call .createContainer ∉ kinds) :
    Obeys (Mounting []) (h.withDefaultContainer fixture stem body) := by
  refine Obeys.bind mounting_composes ?_ fun id => mounting_of_passes scenario (hbody id) hkinds
  refine Obeys.bind mounting_composes
    (mounting_of_passes scenario (Passes.uniqueName stem) (by decide)) fun name => ?_
  exact mounting_createContainer fixture rfl

theorem mounting_withExtendedContainer (scenario : Scenario) (fixture : Fixture)
    {body : ContainerId → Session σ Unit} (hbody : ∀ id, Passes scenario kinds (body id))
    (hkinds : Deed.Kind.call .createContainer ∉ kinds) :
    Obeys (Mounting []) (h.withExtendedContainer fixture body) := by
  refine Obeys.bind mounting_composes
    (mounting_of_passes scenario (passes_hostPath _) (by decide)) fun path => ?_
  refine mounting_ensuring ?_ fun w => World.calls_discard w path
  exact mounting_configured fun name => mounting_created scenario fixture rfl hbody hkinds

theorem mounting_withLog (scenario : Scenario) (fixture : Fixture) (stem : String)
    (command : List String) {body : ContainerId → String → Session σ Unit}
    (hbody : ∀ id path, Passes scenario kinds (body id path))
    (hkinds : Deed.Kind.call .createContainer ∉ kinds) :
    Obeys (Mounting []) (h.logConfig stem command >>= fun config =>
      Session.lift (containerLog fixture config) >>= fun path =>
        h.createContainer fixture config >>= fun id => body id path) :=
  mounting_configured fun _ =>
    Obeys.bind mounting_composes (Obeys.lift mounting_composes _) fun path =>
      mounting_created scenario fixture rfl (fun id => hbody id path) hkinds

theorem mounting_checkVolume (fixture : Fixture) (stem hostPath : String) :
    Obeys (Mounting [hostPath]) (h.checkVolume fixture stem hostPath) := by
  have hcheck : ∀ id, Passes .startWithVolume
      ([.call .startContainer, .call .containerStatus] ++ [.call .execSync])
      (h.startAndWait id >>= fun _ => h.exec id ["ls", "-A", hostPath] >>= fun listing =>
        Session.require (listing != "")
          "listing of the mounted host path should not be empty") := fun id =>
    (accounts_startAndWait rfl id).passes.bind fun _ =>
      (accounts_execRequire id _ (· != "") fun _ =>
        "listing of the mounted host path should not be empty").passes
  exact mounting_configured fun _ => mounting_created _ fixture rfl hcheck (by decide)

end Harness

def Scenario.mountsHostPath : Scenario → Bool
  | startWithVolume | startWithLinkedVolume => true
  | _ => false

namespace Harness

variable {h : Harness σ}

/-- The containers of all other scenarios mount nothing. -/
theorem mounting_runIn {scenario : Scenario} (hnone : scenario.mountsHostPath = false)
    (fixture : Fixture) : Obeys (Mounting []) (h.runIn fixture scenario) := by
  have hstart (id : ContainerId) : Passes scenario _ (h.startContainer id) :=
    (accounts_startContainer id).passes
  cases scenario with
  | createContainer =>
    exact mounting_withDefaultContainer .createContainer fixture _ (fun id =>
      (accounts_waitForState rfl id).passes.bind fun _ => (accounts_requireListed id).passes)
      (by decide)
  | startContainer =>
    exact mounting_withDefaultContainer .startContainer fixture _ (fun id =>
      (accounts_startAndWait rfl id).passes) (by decide)
  | stopContainer =>
    exact mounting_withDefaultContainer .stopContainer fixture _ (fun id =>
      (hstart id).bind fun _ => (accounts_stopAndWait rfl id).passes) (by decide)
  | removeContainer =>
    have hremove (id : ContainerId) : Passes .removeContainer [.call .removeContainer]
        (h.removeContainer id) := (accounts_callWell (.removeContainer id) nofun).passes
    exact mounting_withDefaultContainer .removeContainer fixture _ (fun id =>
      (hremove id).bind fun _ => (accounts_requireUnlisted id).passes) (by decide)
  | execSync =>
    exact mounting_withDefaultContainer .execSync fixture _ (fun id => (hstart id).bind fun _ =>
      (accounts_execRequire id ["echo", "hello"] (· == "hello\n") _).passes) (by decide)
  | execSyncWrongCommand =>
    exact mounting_withDefaultContainer .execSyncWrongCommand fixture _ (fun id =>
      (hstart id).bind fun _ => (accounts_verifyExecFails id ["not-exist-command"]).passes)
      (by decide)
  | startWithVolume => cases hnone
  | startWithLinkedVolume => cases hnone
  | startWithLog =>
    exact mounting_withLog .startWithLog fixture _ _ (fun id path => (hstart id).bind fun _ =>
      (accounts_waitForState rfl id).passes.bind fun _ =>
        (accounts_verifyLog (by nofun) _ .stdout).passes) (by decide)
  | reopenLog =>
    exact mounting_withLog .reopenLog fixture _ _ (fun id path => (hstart id).bind fun _ =>
      (accounts_checkRotation id path).passes) (by decide)
  | createExtended =>
    exact mounting_withExtendedContainer .createExtended fixture (fun id =>
      (accounts_requireListed id).passes) (by decide)
  | startExtended =>
    exact mounting_withExtendedContainer .startExtended fixture (fun id =>
      (accounts_startAndWait rfl id).passes) (by decide)
  | extendedStatus =>
    exact mounting_withExtendedContainer .extendedStatus fixture (fun id =>
      (accounts_checkExtended rfl id).passes) (by decide)
  | imageStatus =>
    exact mounting_withExtendedContainer .imageStatus fixture (fun id =>
      (accounts_checkImage rfl id).passes) (by decide)
  | removeVolumes =>
    exact mounting_withExtendedContainer .removeVolumes fixture (fun id =>
      (accounts_checkVolumeRemoval rfl id).passes) (by decide)

/-- What is known of the containers that are created in a sandbox: each host path that one mounts
is there at every call, and gone in the end. -/
def SeesMounts (w w' : World σ) : Prop :=
  ∃ made, w.Made made w' ∧ ∀ call ∈ made, ∀ path ∈ call.mountedPaths,
    (∀ other ∈ made, other.before.tree.exists? path = .ok true) ∧
      w'.HostCalm ∧ w'.tree.AtHostPath path none

theorem calls_of_passes {α : Type} (scenario : Scenario) {kinds : List Deed.Kind}
    {step : Session σ α} (hstep : Passes scenario kinds step)
    (hkinds : ∀ operation, Deed.Kind.call operation ∉ kinds) (w : World σ) :
    (step w).2.calls = w.calls := by
  obtain ⟨trace, hnoted, haccount⟩ := hstep w
  have hmade := hnoted.made
  have hnone : trace.filterMap Note.call? = [] := by
    rw [List.filterMap_eq_nil_iff]
    intro note hnote
    cases hcall : note.call? with
    | none => rfl
    | some call =>
      have hkind := haccount.ofKinds note hnote
      rw [Note.deed_of_call? hcall] at hkind
      exact absurd hkind (hkinds _)
  rw [hnone] at hmade
  exact hmade

theorem calls_create (owner : String) (w : World σ) :
    (HostPath.create owner w).2.calls = w.calls :=
  calls_of_passes .startWithVolume (passes_hostPath owner) (by simp [hostKinds]) w

theorem calls_link (target : String) (w : World σ) :
    (HostPath.link target w).2.calls = w.calls := by
  have hlink : Passes .startWithLinkedVolume [.makeLink]
      (HostPath.link target : Session σ String) :=
    (passes_makeLink (linkPath target) target).bind fun _ => Passes.pure (linkPath target)
  exact calls_of_passes .startWithLinkedVolume hlink (by simp) w

theorem withDirectory_run {α : Type} (owner : String) (body : String → Session σ α) (w : World σ) :
    HostPath.withDirectory owner body w =
      match HostPath.create owner w with
      | (.ok path, w') => ((body path w').1, (body path w').2.discard path)
      | (.error error, w') => (.error error, w') := by
  unfold HostPath.withDirectory
  rw [bind_run]
  rcases HostPath.create owner w with ⟨result, w'⟩
  cases result with
  | ok path => rfl
  | error error => rfl

theorem withLink_run {α : Type} (target : String) (body : String → Session σ α) (w : World σ) :
    HostPath.withLink target body w =
      match HostPath.link target w with
      | (.ok link, w') => ((body link w').1, (body link w').2.discardFile link)
      | (.error error, w') => (.error error, w') := by
  unfold HostPath.withLink
  rw [bind_run]
  rcases HostPath.link target w with ⟨result, w'⟩
  cases result with
  | ok link => rfl
  | error error => rfl

section

variable (hclient : h.client.SparesHostPaths) {fixture : Fixture}
  (hfixture : '/' ∉ fixture.id.text.toList) {w : World σ} (hcalm : w.HostCalm)

include hclient hcalm

/-- The container of a volume check mounts the path that is checked, which stays as it is. -/
theorem checkVolume_sees (fixture : Fixture) (stem hostPath : String) :
    let w' := (h.checkVolume fixture stem hostPath w).2
    w'.HostCalm ∧ w.tree.SameHostPaths w'.tree ∧ ∃ made, w.Made made w' ∧
      (∀ call ∈ made, ∀ path ∈ call.mountedPaths, path = hostPath) ∧
        ∀ call ∈ made, call.before.tree.Grounded ∧ w.tree.SameHostPaths call.before.tree := by
  obtain ⟨hcalm', hsame, made, hmade, hseen⟩ :=
    obeys_checkVolume (conducts_seesHostPaths hclient) fixture stem hostPath w hcalm
  obtain ⟨other, hother, hmounts⟩ := mounting_checkVolume (h := h) fixture stem hostPath w
  obtain rfl := hmade.unique hother
  refine ⟨hcalm', hsame, made, hmade, ?_, ?_⟩
  · intro call hcall path hpath
    exact List.mem_singleton.mp (hmounts call hcall path hpath)
  · intro call hcall
    exact ⟨(hseen call hcall).grounded hcalm.grounded, hseen call hcall⟩

include hfixture

theorem seesMounts_startWithVolume :
    SeesMounts w (h.runIn fixture .startWithVolume w).2 := by
  have hcalls := calls_create fixture.id.text w
  dsimp only [runIn]
  rw [withDirectory_run]
  rcases hcreate : HostPath.create fixture.id.text w with ⟨created, w₁⟩
  rw [hcreate] at hcalls
  cases created with
  | error error => exact ⟨[], .nil hcalls, by simp⟩
  | ok hostPath =>
    obtain ⟨hcalm₁, hat⟩ := hostPath_create hfixture hcalm hcreate
    obtain ⟨hcalm₂, hsame, made, hmade, hmounts, hseen⟩ :=
      checkVolume_sees hclient hcalm₁ fixture "container-with-volume-test-" hostPath
    obtain ⟨hcalm₃, hgone, -⟩ := discard_hostPath hcalm₂ (hat.same hsame)
    refine ⟨made, ((World.Made.nil hcalls).append hmade).sameCalls (World.calls_discard _ _), ?_⟩
    intro call hcall path hpath
    obtain rfl := hmounts call hcall path hpath
    refine ⟨?_, hcalm₃, hgone⟩
    intro other hother
    obtain ⟨hgrounded, hbefore⟩ := hseen other hother
    exact (hat.same hbefore).exists?_directory hgrounded

theorem seesMounts_startWithLinkedVolume :
    SeesMounts w (h.runIn fixture .startWithLinkedVolume w).2 := by
  have hcalls := calls_create fixture.id.text w
  dsimp only [runIn]
  rw [withDirectory_run]
  rcases hcreate : HostPath.create fixture.id.text w with ⟨created, w₁⟩
  rw [hcreate] at hcalls
  cases created with
  | error error => exact ⟨[], .nil hcalls, by simp⟩
  | ok hostPath =>
    obtain ⟨hcalm₁, hat⟩ := hostPath_create hfixture hcalm hcreate
    have hcalls₁ := calls_link hostPath w₁
    dsimp only
    rw [withLink_run]
    rcases hlink : HostPath.link hostPath w₁ with ⟨linked, w₂⟩
    rw [hlink] at hcalls₁
    have hmade₂ : w.Made [] w₂ := .nil (hcalls₁.trans hcalls)
    cases linked with
    | error error => exact ⟨[], hmade₂.sameCalls (World.calls_discard _ _), by simp⟩
    | ok link =>
      obtain ⟨hcalm₂, rfl, hatLink, hatPath⟩ := hostPath_link hcalm₁ hat hlink
      obtain ⟨hcalm₃, hsame, made, hmade, hmounts, hseen⟩ := checkVolume_sees hclient hcalm₂
        fixture "container-with-symlink-host-path-test-" (linkPath hostPath)
      obtain ⟨hcalm₄, hgone, hothers⟩ := discardFile_hostPath hcalm₃ (hatLink.same hsame)
      have hatPath₄ := hothers _ _ (linkPath_ne hostPath).symm (hatPath.same hsame)
      obtain ⟨hcalm₅, -, hothers'⟩ := discard_hostPath hcalm₄ hatPath₄
      refine ⟨made, ((hmade₂.append hmade).sameCalls (World.calls_discardFile _ _)).sameCalls
        (World.calls_discard _ _), ?_⟩
      intro call hcall path hpath
      obtain rfl := hmounts call hcall path hpath
      refine ⟨?_, hcalm₅, hothers' _ _ (linkPath_ne hostPath) hgone⟩
      intro other hother
      obtain ⟨hgrounded, hbefore⟩ := hseen other hother
      exact (hatLink.same hbefore).exists?_link (hatPath.same hbefore) hgrounded

theorem seesMounts_runIn {scenario : Scenario} (hmounts : scenario.mountsHostPath = true) :
    SeesMounts w (h.runIn fixture scenario w).2 := by
  cases scenario with
  | startWithVolume => exact seesMounts_startWithVolume hclient hfixture hcalm
  | startWithLinkedVolume => exact seesMounts_startWithLinkedVolume hclient hfixture hcalm
  | _ => cases hmounts

omit hfixture in
/-- A sandbox without logs is named by the runtime, and nothing else is made for it. -/
theorem runSandbox_hostCalm {fixture : Fixture} {w' : World σ}
    (hrun : h.runSandbox w = (.ok fixture, w')) :
    w'.HostCalm ∧ '/' ∉ fixture.id.text.toList ∧ fixture.ownDirectory = none := by
  obtain ⟨config, -, heq⟩ :=
    startFixture_run h "create-PodSandbox-for-container-" none w
  rw [runSandbox_eq, heq, Prod.mk.injEq] at hrun
  obtain ⟨hresult, rfl⟩ := hrun
  have hdraw : (w.draw 2).HostCalm := ⟨hcalm.grounded, hcalm.pending⟩
  have hcalm' := (seesHostPaths_ask hclient (.runSandbox config) (w.draw 2) none hdraw).1
  cases hanswer : (h.client.ask (.runSandbox config) (w.draw 2)).1 with
  | error message =>
    rw [hanswer] at hresult
    cases hresult
  | ok id =>
    rw [hanswer] at hresult
    cases hresult
    exact ⟨hcalm', hclient.names config _ _ id hanswer, rfl⟩

end

end Harness

theorem ofSandbox_of_mounts {call : Call σ} {path : String} (h : path ∈ call.mountedPaths) :
    call.exchange.ofSandbox = false := by
  unfold Call.mountedPaths at h
  split at h
  · next heq => rw [heq]; rfl
  · cases h

/-- A call that neither runs nor releases the sandbox is made in it. -/
theorem mem_middle {ran : Call σ} {middle released : List (Call σ)} {id : SandboxId}
    {config : SandboxConfig} {answer : Except String SandboxId}
    (hran : ran.exchange = .asked (.runSandbox config) answer)
    (hreleased : Releases id (released.map Call.exchange)) {call : Call σ}
    (hmem : call ∈ ran :: middle ++ released) (hcall : call.exchange.ofSandbox = false) :
    call ∈ middle := by
  simp only [List.cons_append, List.mem_cons, List.mem_append] at hmem
  rcases hmem with rfl | hmem | hmem
  · rw [hran] at hcall
    cases hcall
  · exact hmem
  · obtain ⟨stopped, removed, htrace⟩ := hreleased
    have hexchange := List.mem_map_of_mem (f := Call.exchange) hmem
    rw [htrace, List.mem_cons, List.mem_singleton] at hexchange
    rcases hexchange with heq | heq
    · rw [heq] at hcall
      cases hcall
    · rw [heq] at hcall
      cases hcall

/-- Each host path that a container mounts is there at every call that is made in the sandbox, and
is gone when the sandbox is stopped and removed. -/
def MountsGoFirst (made : List (Call σ)) (w : World σ) : Prop :=
  ∀ call ∈ made, ∀ path ∈ call.mountedPaths,
    (∀ other ∈ made, other.exchange.ofSandbox = false →
      other.before.tree.exists? path = .ok true) ∧
    (∀ other ∈ made, other.exchange.tearsDown = true →
      other.before.tree.exists? path = .ok false) ∧
    w.tree.exists? path = .ok false

namespace Harness

variable {h : Harness σ}

theorem runSandboxFor_of_mounts {scenario : Scenario} (hmounts : scenario.mountsHostPath = true) :
    h.runSandboxFor scenario = h.runSandbox := by
  cases scenario with
  | startWithVolume => rfl
  | startWithLinkedVolume => rfl
  | _ => cases hmounts

/-- What is gone before a sandbox is released is not there while it is stopped and removed. -/
theorem release_vacant (hclient : h.client.SparesHostPaths) {fixture : Fixture}
    (hown : fixture.ownDirectory = none) {w : World σ} (hcalm : w.HostCalm) {path : String}
    (hgone : w.tree.AtHostPath path none) :
    (∀ call ∈ [h.stopSandboxCall fixture.id w, h.removeSandboxCall fixture.id w],
      call.before.tree.exists? path = .ok false) ∧
      (h.release fixture w).tree.exists? path = .ok false := by
  obtain ⟨hcalm₁, hsame₁, -⟩ :=
    seesHostPaths_ask hclient (.stopSandbox fixture.id) w none hcalm
  obtain ⟨hcalm₂, hsame₂, -⟩ := seesHostPaths_ask hclient (.removeSandbox fixture.id)
    (h.tell (.stopSandbox fixture.id) w) none hcalm₁
  have hrelease : h.release fixture w =
      h.tell (.removeSandbox fixture.id) (h.tell (.stopSandbox fixture.id) w) := by
    unfold release
    rw [hown]
  have hgone₁ := hgone.same hsame₁
  refine ⟨?_, ?_⟩
  · refine List.forall_mem_cons.mpr ⟨hgone.exists?_vacant hcalm.grounded, ?_⟩
    exact List.forall_mem_singleton.mpr (hgone₁.exists?_vacant hcalm₁.grounded)
  · rw [hrelease]
    exact (hgone₁.same hsame₂).exists?_vacant hcalm₂.grounded

theorem mountsGoFirst (hclient : h.client.SparesHostPaths) (scenario : Scenario) {w : World σ}
    (hcalm : w.HostCalm) :
    ∃ made, w.Made made (h.run scenario w).2 ∧ MountsGoFirst made (h.run scenario w).2 := by
  have hacquired := acquired_runSandboxFor h scenario w
  unfold run
  rw [withFixture_run]
  rcases heq : h.runSandboxFor scenario w with ⟨acquired, w₁⟩
  rw [heq] at hacquired
  cases hacquired with
  | unmade error hmade => exact ⟨[], hmade, by simp [MountsGoFirst]⟩
  | refused config message hmade hran =>
    refine ⟨_, hmade, List.forall_mem_singleton.mpr ?_⟩
    intro path hpath
    have hcall := ofSandbox_of_mounts hpath
    rw [hran] at hcall
    cases hcall
  | ran fixture hmade hran _ =>
    obtain ⟨middle, hmiddle, hquiet⟩ := h.runIn_quiet fixture scenario w₁
    have hreleased := h.made_release fixture (h.runIn fixture scenario w₁).2
    have hreleases := h.releases_calls fixture.id (h.runIn fixture scenario w₁).2
    refine ⟨_, (hmade.append hmiddle).append hreleased, ?_⟩
    intro call hcall path hpath
    have hmem := mem_middle hran hreleases hcall (ofSandbox_of_mounts hpath)
    cases hsome : scenario.mountsHostPath with
    | false =>
      obtain ⟨other, hother, hmounts⟩ := mounting_runIn hsome fixture w₁
      obtain rfl := hmiddle.unique hother
      exact absurd (hmounts call hmem path hpath) List.not_mem_nil
    | true =>
      rw [runSandboxFor_of_mounts hsome] at heq
      obtain ⟨hcalm₁, hname, hown⟩ := runSandbox_hostCalm hclient hcalm heq
      obtain ⟨other, hother, hsees⟩ := seesMounts_runIn hclient hname hcalm₁ hsome
      obtain rfl := hmiddle.unique hother
      obtain ⟨hthere, hcalm₂, hgone⟩ := hsees call hmem path hpath
      obtain ⟨hvacant, hend⟩ := release_vacant hclient hown hcalm₂ hgone
      refine ⟨?_, ?_, hend⟩
      · intro seen hseen hinside
        exact hthere seen (mem_middle hran hreleases hseen hinside)
      · intro seen hseen htears
        exact hvacant seen (mem_released hquiet hran hseen htears)

/-- The host paths that containers mount outlive the calls in their sandbox, but not the sandbox:
they are removed before it is stopped. -/
theorem run_mountsGoFirst (hclient : h.client.SparesHostPaths) (scenario : Scenario) {w : World σ}
    (hcalm : w.HostCalm) :
    ∃ made, w.Made made (h.run scenario w).2 ∧ Lifetime (made.map Call.exchange) ∧
      MountsGoFirst made (h.run scenario w).2 := by
  obtain ⟨made, hmade, hlifetime⟩ := h.run_lifetime scenario w
  obtain ⟨other, hother, hfirst⟩ := mountsGoFirst hclient scenario hcalm
  obtain rfl := hmade.unique hother
  exact ⟨made, hmade, hlifetime, hfirst⟩

/-- A container that could be created, but cannot be started: its host path is gone when the
sandbox is stopped. -/
theorem run_mountGone :
    let h : Harness Unit := ⟨.startless, {}⟩
    let calls := (h.run .startWithVolume (World.start ⟨[], []⟩ ())).2.calls
    ∃ created ∈ calls, created.exchange.failure? = none ∧ ∃ path ∈ created.mountedPaths,
      ∃ torn ∈ calls, torn.exchange.tearsDown = true ∧
        torn.before.tree.exists? path = .ok false := by
  have hvacant (found : Except IoFault Bool) :
      found = .ok false ↔ found.toOption = some false := by
    cases found with
    | ok found => simp [Except.toOption]
    | error fault => simp [Except.toOption]
  simp only [hvacant]
  decide +kernel

/-- A runtime that starts no container sees its host path from start to end. -/
theorem run_mountsGoFirst_startless :
    let h : Harness Unit := ⟨.startless, {}⟩
    let w := World.start ⟨[], []⟩ ()
    h.client.SparesHostPaths ∧ w.HostCalm ∧
      ∃ made, w.Made made (h.run .startWithVolume w).2 ∧ Lifetime (made.map Call.exchange) ∧
        MountsGoFirst made (h.run .startWithVolume w).2 := by
  intro h w
  have hclient : h.client.SparesHostPaths := by
    refine ⟨⟨?_, fun id timeout now store => ⟨.refl _, nofun⟩⟩, ?_⟩
    · intro request now store
      cases request <;> exact ⟨.refl _, nofun⟩
    · rintro config now store id hanswer
      cases hanswer
      decide
  have hcalm : w.HostCalm := by
    refine ⟨⟨?_, nofun⟩, nofun⟩
    intro place hplace
    rw [List.prefix_nil.mp hplace]
    rfl
  exact ⟨hclient, hcalm, run_mountsGoFirst hclient .startWithVolume hcalm⟩

end Harness

end Check

end ContainerCheck
