import ContainerCheck.Check.Scenario
import ContainerCheck.Proofs.ScratchDirectories
import ContainerCheck.Proofs.Utf8

namespace ContainerCheck.Check

open ContainerCheck.Cri ContainerCheck.Host ContainerCheck.Session ContainerCheck.Text

namespace Harness

variable {config : Config} {tree : Tree} {fixture : Fixture} {c : MemoryContainer}

theorem stopContainerTimeout_pos (h : 1 ≤ config.stopContainerTimeoutSecs) :
    0 < config.stopContainerTimeout :=
  Nat.mul_pos h (by decide)

structure IsShell (fixture : Fixture) (c : MemoryContainer) : Prop where
  created : c.state = .created
  inside : c.sandbox = fixture.id
  quiet : c.log = none
  runs : startedState c = .running

/-- A step that leaves a container in the sandbox. -/
theorem leads_hosts {α : Type} {before : Store Memory → Prop} {step : Session Memory α}
    (h : Leads before step fun _ store => store.Shows tree [(fixture.id, fixture.config)] [c])
    (hinside : c.sandbox = fixture.id) {trees : Tree → Prop} (htree : trees tree) :
    Leads before step fun _ => Store.Hosts trees fixture := by
  refine h.mono fun _ store hstore => ⟨tree, [c], htree, ?_, hstore⟩
  intro other hother
  rw [List.mem_singleton.mp hother]
  exact hinside

/-- A step that leaves no container in the sandbox. -/
theorem leads_hosts_empty {α : Type} {before : Store Memory → Prop} {step : Session Memory α}
    (h : Leads before step fun _ store => store.Shows tree [(fixture.id, fixture.config)] [])
    {trees : Tree → Prop} (htree : trees tree) :
    Leads before step fun _ => Store.Hosts trees fixture :=
  h.mono fun _ store hstore => ⟨tree, [], htree, by simp, hstore⟩

theorem leads_createShell {container : ContainerConfig} (hlog : container.logPath = none)
    (hcommand : isEcho container.command = false) :
    Leads (Store.Shows tree [(fixture.id, fixture.config)] [])
      ((inMemory config).createContainer fixture container) fun id store =>
        ∃ c, (IsShell fixture c ∧ c.id = id ∧ c.config = container) ∧
          store.Shows tree [(fixture.id, fixture.config)] [c] := by
  refine (leads_createContainer fixture container).mono fun id store h => ⟨_, ⟨?_, rfl, rfl⟩, h⟩
  refine ⟨rfl, rfl, ?_, ?_⟩
  · simp [logOf, hlog]
  · simp [startedState, hcommand]

/-- A container that is started is seen to run. -/
theorem leads_startShell (h : IsShell fixture c) :
    Leads (Store.Shows tree [(fixture.id, fixture.config)] [c])
      ((inMemory config).startContainer c.id) fun _ store =>
        store.Shows tree [(fixture.id, fixture.config)] [c.inState .running] := by
  rw [← h.runs]
  exact leads_startContainer h.created h.quiet

/-- A running container is what a check may leave behind. -/
theorem leads_startAndWait (h : IsShell fixture c) :
    Leads (Store.Shows tree [(fixture.id, fixture.config)] [c])
      ((inMemory config).startAndWait c.id) fun _ store =>
        store.Shows tree [(fixture.id, fixture.config)] [c.inState .running] :=
  (leads_startShell h).bind fun _ =>
    leads_waitForState (c := c.inState .running) rfl

theorem leads_requireListed :
    Leads (Store.Shows tree [(fixture.id, fixture.config)] [c])
      ((inMemory config).requireListed c.id) fun _ =>
        Store.Shows tree [(fixture.id, fixture.config)] [c] :=
  leads_listContainers.bind fun _ => .of_and fun hlisted => leads_require hlisted _

theorem leads_withDefaultContainer {after : Store Memory → Prop} (stem : String)
    {body : ContainerId → Session Memory Unit}
    (hbody : ∀ c, IsShell fixture c →
      Leads (Store.Shows tree [(fixture.id, fixture.config)] [c]) (body c.id) fun _ => after) :
    Leads (Store.Shows tree [(fixture.id, fixture.config)] [])
      ((inMemory config).withDefaultContainer fixture stem body) fun _ => after := by
  have hcreate : Leads (Store.Shows tree [(fixture.id, fixture.config)] [])
      ((inMemory config).createDefaultContainer fixture stem) fun id store =>
        ∃ c, (IsShell fixture c ∧ c.id = id) ∧
          store.Shows tree [(fixture.id, fixture.config)] [c] := by
    refine (leads_uniqueName stem).bind fun name => .of_and fun _ => ?_
    refine (leads_createShell rfl rfl).mono ?_
    rintro id store ⟨c, ⟨hshell, hid, -⟩, hstore⟩
    exact ⟨c, ⟨hshell, hid⟩, hstore⟩
  refine hcreate.bind fun id => .of_exists fun c => .of_and ?_
  rintro ⟨hshell, rfl⟩
  exact hbody c hshell

section

variable (config) (tree) (fixture)

theorem leads_runIn_createContainer :
    Leads (Store.Shows tree [(fixture.id, fixture.config)] [])
      ((inMemory config).runIn fixture .createContainer) fun _ =>
        Store.Hosts tree.Alike fixture := by
  refine leads_withDefaultContainer _ fun c hshell => ?_
  refine (leads_waitForState hshell.created).bind fun _ => ?_
  exact leads_hosts leads_requireListed hshell.inside (.refl tree)

theorem leads_runIn_startContainer :
    Leads (Store.Shows tree [(fixture.id, fixture.config)] [])
      ((inMemory config).runIn fixture .startContainer) fun _ =>
        Store.Hosts tree.Alike fixture :=
  leads_withDefaultContainer _ fun _ hshell =>
    leads_hosts (leads_startAndWait hshell) hshell.inside (.refl tree)

theorem leads_runIn_stopContainer (hstop : 1 ≤ config.stopContainerTimeoutSecs) :
    Leads (Store.Shows tree [(fixture.id, fixture.config)] [])
      ((inMemory config).runIn fixture .stopContainer) fun _ =>
        Store.Hosts tree.Alike fixture := by
  refine leads_withDefaultContainer _ fun c hshell => (leads_startShell hshell).bind fun _ => ?_
  have hstopped : Leads (Store.Shows tree [(fixture.id, fixture.config)] [c.inState .running])
      ((inMemory config).stopContainer c.id config.stopContainerTimeout) fun _ store =>
        store.Shows tree [(fixture.id, fixture.config)] [c.inState .exited] :=
    leads_stopContainer (c := c.inState .running) (stopContainerTimeout_pos hstop)
  have hexited : Leads (Store.Shows tree [(fixture.id, fixture.config)] [c.inState .exited])
      ((inMemory config).waitForState c.id .exited) fun _ =>
        Store.Shows tree [(fixture.id, fixture.config)] [c.inState .exited] :=
    leads_waitForState (c := c.inState .exited) rfl
  exact leads_hosts (c := c.inState .exited) (hstopped.bind fun _ => hexited) hshell.inside
    (.refl tree)

theorem leads_runIn_removeContainer :
    Leads (Store.Shows tree [(fixture.id, fixture.config)] [])
      ((inMemory config).runIn fixture .removeContainer) fun _ =>
        Store.Hosts tree.Alike fixture := by
  refine leads_withDefaultContainer _ fun c hshell => ?_
  have hremovable : c.state ≠ .running := by
    rw [hshell.created]
    decide
  refine (leads_removeContainer hremovable).bind fun _ => ?_
  refine (leads_listContainers_empty c.id).bind fun listed => .of_and fun hlisted => ?_
  exact leads_hosts_empty (leads_require (by rw [hlisted]; rfl) _) (.refl tree)

theorem leads_runIn_execSync :
    Leads (Store.Shows tree [(fixture.id, fixture.config)] [])
      ((inMemory config).runIn fixture .execSync) fun _ => Store.Hosts tree.Alike fixture := by
  refine leads_withDefaultContainer _ fun c hshell => (leads_startShell hshell).bind fun _ => ?_
  have hexec : Leads (Store.Shows tree [(fixture.id, fixture.config)] [c.inState .running])
      ((inMemory config).exec c.id ["echo", "hello"]) fun printed store =>
        printed = String.ofList (decodeLossy (encode "hello\n".toList)) ∧
          store.Shows tree [(fixture.id, fixture.config)] [c.inState .running] :=
    leads_exec (c := c.inState .running) rfl rfl
  have hprinted : (String.ofList (decodeLossy (encode "hello\n".toList)) == "hello\n") = true := by
    decide
  refine leads_hosts (c := c.inState .running) (hexec.bind fun printed => .of_and ?_) hshell.inside
    (.refl tree)
  rintro rfl
  exact leads_require hprinted _

theorem leads_runIn_execSyncWrongCommand :
    Leads (Store.Shows tree [(fixture.id, fixture.config)] [])
      ((inMemory config).runIn fixture .execSyncWrongCommand) fun _ =>
        Store.Hosts tree.Alike fixture := by
  refine leads_withDefaultContainer _ fun c hshell => (leads_startShell hshell).bind fun _ => ?_
  have hfails : Leads (Store.Shows tree [(fixture.id, fixture.config)] [c.inState .running])
      ((inMemory config).verifyExecFails c.id ["not-exist-command"]) fun _ =>
        Store.Shows tree [(fixture.id, fixture.config)] [c.inState .running] :=
    leads_verifyExecFails (c := c.inState .running) rfl rfl
  exact leads_hosts hfails hshell.inside (.refl tree)

end

/-- A listing with a name in it is printed as some text. -/
theorem printed_ne_empty {names : List String} (h : names ≠ []) :
    (String.ofList (decodeLossy (encode (String.join (names.map (· ++ "\n"))).toList)) != "") =
      true := by
  obtain ⟨name, names, rfl⟩ := List.exists_cons_of_ne_nil h
  have hread := decodeLossy_encode_append (String.join ((name :: names).map (· ++ "\n"))).toList []
  rw [List.append_nil, decodeLossy, List.append_nil] at hread
  rw [hread, String.ofList_toList, List.map_cons, String.join_cons, bne_iff_ne]
  intro hempty
  have htext := congrArg String.toList hempty
  simp at htext

theorem leads_checkVolume (stem : String) {hostPath : String} {names : List String}
    (hlist : tree.list hostPath = .ok names) (hne : names ≠ []) {trees : Tree → Prop}
    (htree : trees tree) :
    Leads (Store.Shows tree [(fixture.id, fixture.config)] [])
      ((inMemory config).checkVolume fixture stem hostPath) fun _ =>
        Store.Hosts trees fixture := by
  have hvolume : Leads (Store.Shows tree [(fixture.id, fixture.config)] [])
      ((inMemory config).volumeConfig stem hostPath) fun container store =>
        (container.logPath = none ∧ isEcho container.command = false) ∧
          store.Shows tree [(fixture.id, fixture.config)] [] :=
    (leads_uniqueName stem).bind fun _ => .of_and fun _ => .pure fun _ h => ⟨⟨rfl, rfl⟩, h⟩
  refine hvolume.bind fun container => .of_and fun ⟨hlog, hcommand⟩ => ?_
  refine (leads_createShell hlog hcommand).bind fun id => .of_exists fun c => .of_and ?_
  rintro ⟨hshell, rfl, -⟩
  refine leads_hosts (c := c.inState .running) ?_ hshell.inside htree
  refine (leads_startAndWait hshell).bind fun _ => ?_
  have hexec : Leads (Store.Shows tree [(fixture.id, fixture.config)] [c.inState .running])
      ((inMemory config).exec c.id ["ls", "-A", hostPath]) fun printed store =>
        printed = String.ofList (decodeLossy
          (encode (String.join (names.map (· ++ "\n"))).toList)) ∧
            store.Shows tree [(fixture.id, fixture.config)] [c.inState .running] := by
    refine leads_exec (c := c.inState .running) rfl ?_
    simp only [Memory.execute, hlist]
  refine hexec.bind fun printed => .of_and ?_
  rintro rfl
  exact leads_require (printed_ne_empty hne) _

section

variable (hr : tree.Roomy) (howner : IsScratchStem ("test" ++ fixture.id.text))
include hr howner

theorem leads_runIn_startWithVolume :
    Leads (Store.Shows tree [(fixture.id, fixture.config)] [])
      ((inMemory config).runIn fixture .startWithVolume) fun _ =>
        Store.Hosts tree.Alike fixture := by
  refine leads_withDirectory hr howner fun name now hpath => ?_
  have hlist := hpath.list hr hpath.scratchName.toIsShortName
  exact leads_checkVolume _ hlist (Tree.listing_ne_nil hpath.flag) hpath.toScratch

theorem leads_runIn_startWithLinkedVolume :
    Leads (Store.Shows tree [(fixture.id, fixture.config)] [])
      ((inMemory config).runIn fixture .startWithLinkedVolume) fun _ =>
        Store.Hosts tree.Alike fixture := by
  refine leads_withDirectory hr howner fun name now hpath => leads_withLink hr hpath ?_
  obtain ⟨names, hne, hlist⟩ := hpath.list_linked hr
  exact leads_checkVolume _ hlist hne rfl

end

structure IsExtendedShell (fixture : Fixture) (c : MemoryContainer) : Prop
    extends IsShell fixture c where
  image : c.config.image.reference = volumeImage
  resources : (c.config.linux.bind (·.resources)).isSome = true
  mounts : c.config.mounts = []

theorem leads_extendedConfig (hvolume : config.defaultVolumeImage = volumeImage)
    {before : Store Memory → Prop} :
    Leads before (inMemory config).extendedConfig fun container store =>
      (container.logPath = none ∧ isEcho container.command = false ∧
        container.image.reference = volumeImage ∧
        (container.linux.bind (·.resources)).isSome = true ∧ container.mounts = []) ∧
      before store :=
  (leads_uniqueName _).bind fun _ => .of_and fun _ => .pure fun _ h =>
    ⟨⟨rfl, rfl, hvolume, rfl, rfl⟩, h⟩

section

variable (hr : tree.Roomy) (howner : IsScratchStem ("test" ++ fixture.id.text))
  (hvolume : config.defaultVolumeImage = volumeImage)
include hr howner hvolume

theorem leads_withExtendedContainer {body : ContainerId → Session Memory Unit}
    (hbody : ∀ now c, IsExtendedShell fixture c →
      Leads (Store.Shows now [(fixture.id, fixture.config)] [c]) (body c.id) fun _ =>
        Store.Hosts (Eq now) fixture) :
    Leads (Store.Shows tree [(fixture.id, fixture.config)] [])
      ((inMemory config).withExtendedContainer fixture body) fun _ =>
        Store.Hosts tree.Alike fixture := by
  refine leads_withDirectory hr howner fun name now hpath => ?_
  refine (leads_extendedConfig hvolume).bind fun container => .of_and ?_
  rintro ⟨hlog, hcommand, himage, hresources, hmounts⟩
  refine (leads_createShell hlog hcommand).bind fun id => .of_exists fun c => .of_and ?_
  rintro ⟨hshell, rfl, rfl⟩
  refine (hbody now c ⟨hshell, himage, hresources, hmounts⟩).mono fun _ store h => h.mono ?_
  rintro _ rfl
  exact hpath.toScratch

theorem leads_runIn_createExtended :
    Leads (Store.Shows tree [(fixture.id, fixture.config)] [])
      ((inMemory config).runIn fixture .createExtended) fun _ =>
        Store.Hosts tree.Alike fixture :=
  leads_withExtendedContainer hr howner hvolume fun _ _ hshell =>
    leads_hosts leads_requireListed hshell.inside rfl

theorem leads_runIn_startExtended :
    Leads (Store.Shows tree [(fixture.id, fixture.config)] [])
      ((inMemory config).runIn fixture .startExtended) fun _ =>
        Store.Hosts tree.Alike fixture :=
  leads_withExtendedContainer hr howner hvolume fun _ c hshell =>
    leads_hosts (c := c.inState .running) (leads_startAndWait hshell.toIsShell) hshell.inside rfl

theorem leads_runIn_extendedStatus :
    Leads (Store.Shows tree [(fixture.id, fixture.config)] [])
      ((inMemory config).runIn fixture .extendedStatus) fun _ =>
        Store.Hosts tree.Alike fixture := by
  refine leads_withExtendedContainer hr howner hvolume fun now c hshell => ?_
  refine leads_hosts ?_ hshell.inside rfl
  refine leads_containerStatus.bind fun status => .of_and ?_
  rintro rfl
  refine (leads_require rfl _).bind fun _ => ?_
  refine (leads_require hshell.resources _).bind fun _ => ?_
  refine (leads_require rfl _).bind fun _ => ?_
  exact leads_require rfl _

theorem leads_runIn_imageStatus :
    Leads (Store.Shows tree [(fixture.id, fixture.config)] [])
      ((inMemory config).runIn fixture .imageStatus) fun _ =>
        Store.Hosts tree.Alike fixture := by
  refine leads_withExtendedContainer hr howner hvolume fun now c hshell => ?_
  refine leads_hosts ?_ hshell.inside rfl
  refine leads_containerStatus.bind fun status => .of_and ?_
  rintro rfl
  refine (leads_imageStatus hshell.image).bind fun image => .of_and ?_
  rintro ⟨id, volumes, rfl⟩
  exact leads_require rfl _

theorem leads_runIn_removeVolumes (hstop : 1 ≤ config.stopContainerTimeoutSecs) :
    Leads (Store.Shows tree [(fixture.id, fixture.config)] [])
      ((inMemory config).runIn fixture .removeVolumes) fun _ =>
        Store.Hosts tree.Alike fixture := by
  refine leads_withExtendedContainer hr howner hvolume fun now c hshell => ?_
  refine leads_hosts_empty ?_ rfl
  refine leads_containerStatus.bind fun status => .of_and ?_
  rintro rfl
  have hname : firstVolumeName? ((Memory.statusOf c).mounts.getD []) = some "data-volume" := by
    simp only [Memory.statusOf, hshell.mounts, hshell.image, if_true]
    rfl
  have hstopped : Leads (Store.Shows now [(fixture.id, fixture.config)] [c])
      ((inMemory config).stopContainer c.id config.stopContainerTimeout) fun _ store =>
        store.Shows now [(fixture.id, fixture.config)] [c.inState .exited] :=
    leads_stopContainer (stopContainerTimeout_pos hstop)
  have hremoved : Leads (Store.Shows now [(fixture.id, fixture.config)] [c.inState .exited])
      ((inMemory config).removeContainer c.id) fun _ store =>
        store.Shows now [(fixture.id, fixture.config)] [] :=
    leads_removeContainer (c := c.inState .exited) (by decide : ContainerState.exited ≠ .running)
  simp only [hname]
  exact hstopped.bind fun _ => hremoved

end

end Harness

end ContainerCheck.Check
