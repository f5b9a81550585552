import Mathlib.Tactic.Choose
import ContainerCheck.Proofs.OperationAccounts

namespace ContainerCheck.Check

open ContainerCheck.Cri ContainerCheck.Host ContainerCheck.Poll ContainerCheck.Session

variable {σ α : Type}

def IsExtended (status : ContainerStatus) : Prop :=
  status.quotaId.isSome ∧ status.resources.isSome ∧ status.mounts.isSome ∧ status.envs.isSome

theorem requireExtended_eq (status : ContainerStatus) :
    ∃ result : Except Error Unit, (Harness.requireExtended status : Session σ Unit) =
      Session.lift result ∧ (result = .ok () ↔ IsExtended status) := by
  rcases status with ⟨id, state, image, quotaId, resources, mounts, envs⟩
  -- The first field that is missing makes the failure.
  cases quotaId with
  | none => exact ⟨_, rfl, by simp [IsExtended]⟩
  | some quotaId =>
    cases resources with
    | none => exact ⟨_, rfl, by simp [IsExtended]⟩
    | some resources =>
      cases mounts with
      | none => exact ⟨_, rfl, by simp [IsExtended]⟩
      | some mounts =>
        cases envs with
        | none => exact ⟨_, rfl, by simp [IsExtended]⟩
        | some envs => exact ⟨_, rfl, by simp [IsExtended]⟩

def LogsTo (path : String) (config : ContainerConfig) (sandboxConfig : SandboxConfig) : Prop :=
  ∃ directory name, sandboxConfig.logDirectory = some directory ∧ config.logPath = some name ∧
    path = joinPath directory name

theorem logsTo_of_containerLog {fixture : Fixture} {config : ContainerConfig} {path : String}
    (h : Harness.containerLog fixture config = .ok path) : LogsTo path config fixture.config := by
  unfold Harness.containerLog Fixture.logDirectory at h
  cases hname : config.logPath with
  | none =>
    rw [hname] at h
    cases h
  | some name =>
    cases hdirectory : fixture.config.logDirectory with
    | none =>
      rw [hname, hdirectory] at h
      cases h
    | some directory =>
      rw [hname, hdirectory] at h
      cases h
      exact ⟨directory, name, hdirectory, hname, rfl⟩

/-- A directory that has been made could be made under some fresh name. -/
theorem makeDirectory_of_makeTemporary {parent stem : String} {attempts : Nat} {w : World σ}
    {path : String} (h : (w.makeTemporary parent stem attempts).1 = .ok path) :
    ∃ n tree, w.tree.makeDirectory (joinPath parent (stem ++ World.freshSuffix n)) = .ok tree := by
  induction attempts generalizing w with
  | zero => cases h
  | succ attempts ih =>
    unfold World.makeTemporary at h
    dsimp only at h
    split at h
    · next tree hmade => exact ⟨w.drawn, tree, hmade⟩
    · split at h
      · exact ih (w := { w with drawn := w.drawn + 1 }) h
      · cases h

section

variable {scenario : Scenario}

theorem passes_makeTemporary (stem : String) :
    Passes scenario [.makeTemporary] (Session.makeTemporary stem : Session σ String) := by
  have hdoes : Does .makeTemporary (fun result note => ∀ path, result = .ok path → note.WentWell)
      (Session.makeTemporary stem : Session σ String) := by
    intro w
    have hnotes := World.notes_makeTemporary w.home stem World.nameAttempts
      (w.noteNow (.makeTemporary stem))
    refine ⟨⟨w.clock, w.store, .makeTemporary stem⟩, hnotes, rfl, ?_⟩
    intro path hpath
    change hostResult w.home ((w.noteNow (.makeTemporary stem)).makeTemporary w.home stem
      World.nameAttempts).1 = .ok path at hpath
    cases hmade : ((w.noteNow (.makeTemporary stem)).makeTemporary w.home stem
        World.nameAttempts).1 with
    | ok made =>
      have hfree := makeDirectory_of_makeTemporary hmade
      exact hfree
    | error fault =>
      rw [hmade] at hpath
      cases hpath
  exact Accounts.of_wentWell hdoes nofun nofun fun value note htells => htells value rfl

theorem passes_makeFile (path : String) :
    Passes scenario [.makeFile] (Session.makeFile path : Session σ Unit) := by
  refine Accounts.of_wentWell (does_changeTree (.makeFile path) path (·.write path [])) nofun nofun ?_
  rintro value note ⟨hdeed, hwritten⟩
  unfold Note.WentWell
  rw [hdeed]
  exact hwritten.mp rfl

theorem passes_makeLink (path target : String) :
    Passes scenario [.makeLink] (Session.makeLink path target : Session σ Unit) := by
  refine Accounts.of_wentWell
    (does_changeTree (.makeLink path target) path (·.makeLink path target)) nofun nofun ?_
  rintro value note ⟨hdeed, hmade⟩
  unfold Note.WentWell
  rw [hdeed]
  exact hmade.mp rfl

def hostKinds : List Deed.Kind := [.makeTemporary, .makeFile]

theorem passes_hostPath (owner : String) :
    Passes scenario hostKinds (HostPath.create owner : Session σ String) :=
  (passes_makeTemporary ("test" ++ owner)).bind fun path =>
    ((passes_makeFile (joinPath path flagFile)).bind fun _ => Passes.pure path).orDiscard path

/-- What the notes of a run show if those of its last part do. -/
def Persists (shown : List (Note σ) → Prop) : Prop :=
  ∀ trace more, shown more → shown (trace ++ more)

section

variable {kinds : List Deed.Kind} {shown : List (Note σ) → Prop} {sign : Sign σ}
  {signs : List (Sign σ)} {body : String → Session σ Unit}

theorem accounts_withDirectory (owner : String) (hshown : Persists shown)
    (hkind : sign.kind ∉ hostKinds)
    (hbody : ∀ path,
      Accounts scenario kinds (fun _ => shown) (Lacks (sign :: signs)) (body path)) :
    Accounts scenario (hostKinds ++ kinds) (fun _ => shown) (Lacks (sign :: signs))
      (HostPath.withDirectory owner body) :=
  Accounts.concluding (passes_hostPath owner) hkind
    (fun path => (hbody path).ensuring fun w => World.notes_discard w path)
    fun _ _ trace more _ hmore => hshown trace more hmore

theorem accounts_withLink (target : String) (hshown : Persists shown)
    (hkind : sign.kind ∉ [Deed.Kind.makeLink])
    (hbody : ∀ path,
      Accounts scenario kinds (fun _ => shown) (Lacks (sign :: signs)) (body path)) :
    Accounts scenario ([.makeLink] ++ kinds) (fun _ => shown) (Lacks (sign :: signs))
      (HostPath.withLink target body) := by
  have hlink : Passes scenario [.makeLink] (HostPath.link target : Session σ String) :=
    (passes_makeLink (linkPath target) target).bind fun _ => Passes.pure (linkPath target)
  exact Accounts.concluding hlink hkind
    (fun path => (hbody path).ensuring fun w => World.notes_discardFile w path)
    fun _ _ trace more _ hmore => hshown trace more hmore

end

namespace Harness

variable {h : Harness σ}

/-- Does something with a container that an account is given of. -/
theorem accounts_withDefaultContainer (fixture : Fixture) (stem : String) {kinds : List Deed.Kind}
    {signs : ContainerId → List (Sign σ)} {sign : Sign σ} (hkind : sign.kind ∉ createKinds)
    {body : ContainerId → Session σ Unit}
    (hbody : ∀ id, Accounts scenario kinds (fun _ => Shows (signs id)) (Lacks [sign]) (body id)) :
    Accounts scenario (createKinds ++ kinds)
      (fun _ trace => ∃ id, Shows (.creates id (fun _ _ => True) :: signs id) trace) (Lacks [sign])
      (h.withDefaultContainer fixture stem body) :=
  Accounts.concluding (accounts_createDefaultContainer fixture stem) hkind hbody
    fun id _ _ _ hcreated hmore => ⟨id, hcreated.append hmore⟩

theorem accounts_withExtendedContainer (fixture : Fixture) {kinds : List Deed.Kind}
    {shown : ContainerId → List (Note σ) → Prop} {whole : List (Note σ) → Prop} {sign : Sign σ}
    {signs : List (Sign σ)} (hwhole : Persists whole)
    (hshown : ∀ id trace more, Shows [.creates id fun _ _ => True] trace → shown id more →
      whole (trace ++ more))
    (hhost : sign.kind ∉ hostKinds) (hcreate : sign.kind ∉ createKinds)
    {body : ContainerId → Session σ Unit}
    (hbody : ∀ id, Accounts scenario kinds (fun _ => shown id) (Lacks (sign :: signs)) (body id)) :
    Accounts scenario (hostKinds ++ (createKinds ++ kinds)) (fun _ => whole)
      (Lacks (sign :: signs)) (h.withExtendedContainer fixture body) := by
  apply accounts_withDirectory _ hwhole hhost
  intro _
  have hconfig : Passes scenario [] h.extendedConfig :=
    (Passes.uniqueName "container-with-extended-test-").bind fun _ => Passes.pure _
  have hinside : ∀ config, Accounts scenario (createKinds ++ kinds) (fun _ => whole)
      (Lacks (sign :: signs)) (h.createContainer fixture config >>= body) := fun config =>
    Accounts.concluding (accounts_createContainer fixture config trivial) hcreate hbody
      fun id _ trace more hcreated hmore => hshown id trace more hcreated hmore
  have hall := Accounts.concluding hconfig List.not_mem_nil hinside
    fun _ _ trace more _ hmore => hwhole trace more hmore
  exact hall

theorem accounts_startAndWait (hawaited : scenario.awaited = some .running) (id : ContainerId) :
    Accounts scenario [.call .startContainer, .call .containerStatus]
      (fun _ => Shows [.starts id, .reports id (·.state = .running)])
      (Lacks [someReport (·.state = .running)]) (h.startAndWait id) :=
  Accounts.concluding (accounts_startContainer id)
    (by decide : Deed.Kind.call .containerStatus ∉ _)
    (fun _ => accounts_waitForState hawaited id) fun _ _ _ _ hstarted hmore =>
      hstarted.append hmore

theorem accounts_stopAndWait (hawaited : scenario.awaited = some .exited) (id : ContainerId) :
    Accounts scenario [.call .stopContainer, .call .containerStatus]
      (fun _ => Shows [.stops h.client id, .reports id (·.state = .exited)])
      (Lacks [someReport (·.state = .exited)]) (h.stopAndWait id) :=
  Accounts.concluding (accounts_stopContainer id _)
    (by decide : Deed.Kind.call .containerStatus ∉ _)
    (fun _ => accounts_waitForState hawaited id) fun _ _ _ _ hstopped hmore =>
      hstopped.append hmore

/-- A container that mounts a host path must list something in it once it runs. -/
theorem accounts_checkVolume (hawaited : scenario.awaited = some .running) (fixture : Fixture)
    (stem hostPath : String) :
    Accounts scenario
      (createKinds ++ ([.call .startContainer, .call .containerStatus] ++ [.call .execSync]))
      (fun _ trace => ∃ id, Shows
        [.creates id fun config _ => config.mounts = [⟨"", hostPath, hostPath⟩],
          .starts id, .reports id (·.state = .running),
          .prints id ["ls", "-A", hostPath] h.config.execSyncTimeout (· ≠ "")] trace)
      (Lacks [somePrint h.config.execSyncTimeout (· != "")])
      (h.checkVolume fixture stem hostPath) := by
  have hconfig : Accounts scenario []
      (fun config (_ : List (Note σ)) => config.mounts = [⟨"", hostPath, hostPath⟩]) Anything
      (h.volumeConfig stem hostPath) :=
    Accounts.andThen (Passes.uniqueName stem) (fun _ => Accounts.pure _) fun _ _ _ _ _ heq =>
      congrArg ContainerConfig.mounts heq
  have hlisting : ∀ id, Accounts scenario
      ([.call .startContainer, .call .containerStatus] ++ [.call .execSync])
      (fun _ => Shows [.starts id, .reports id (·.state = .running),
        .prints id ["ls", "-A", hostPath] h.config.execSyncTimeout (· ≠ "")])
      (Lacks [somePrint h.config.execSyncTimeout (· != "")])
      (h.startAndWait id >>= fun _ => h.exec id ["ls", "-A", hostPath] >>= fun listing =>
        Session.require (listing != "")
          "listing of the mounted host path should not be empty") := by
    intro id
    refine Accounts.concluding (accounts_startAndWait hawaited id)
      (by decide : Deed.Kind.call .execSync ∉ _)
      (fun _ => accounts_execRequire id _ (· != "") fun _ =>
        "listing of the mounted host path should not be empty") ?_
    intro _ _ trace more hstarted hmore
    exact hstarted.append (Sign.answers_mono hmore fun _ hprint =>
      ⟨hprint.1, bne_iff_ne.mp hprint.2⟩)
  have hinside : ∀ config, Accounts scenario
      (createKinds ++ ([.call .startContainer, .call .containerStatus] ++ [.call .execSync]))
      (fun _ trace => ∃ id, Shows [.creates id fun other _ => other = config,
        .starts id, .reports id (·.state = .running),
        .prints id ["ls", "-A", hostPath] h.config.execSyncTimeout (· ≠ "")] trace)
      (Lacks [somePrint h.config.execSyncTimeout (· != "")])
      (h.createContainer fixture config >>= fun id => h.startAndWait id >>= fun _ =>
        h.exec id ["ls", "-A", hostPath] >>= fun listing => Session.require (listing != "")
          "listing of the mounted host path should not be empty") := fun config =>
    Accounts.concluding (accounts_createContainer fixture config rfl)
      (by decide : Deed.Kind.call .execSync ∉ _) hlisting
      fun id _ _ _ hcreated hmore => ⟨id, hcreated.append hmore⟩
  change Accounts scenario ([] ++ (createKinds ++ _)) _ _ _
  refine Accounts.concluding hconfig List.not_mem_nil hinside ?_
  rintro config _ trace more hmounts ⟨id, hmore⟩
  exact ⟨id, (Sign.creates_mono hmore fun other _ heq => heq ▸ hmounts).behind trace⟩

/-- The fields that only an extended container reports are checked in one status. -/
theorem accounts_checkExtended (hawaited : scenario.awaited = none) (id : ContainerId) :
    Accounts scenario [.call .containerStatus] (fun _ => Shows [.reports id IsExtended])
      (Lacks [someReport IsExtended])
      (h.containerStatus id >>= fun status => requireExtended status) := by
  choose result hresult hiff using fun status => requireExtended_eq (σ := σ) status
  have hstep : (h.containerStatus id >>= fun status => requireExtended status) =
      h.call (.containerStatus id) >>= fun status => Session.lift (result status) :=
    congrArg (h.containerStatus id >>= ·) (funext hresult)
  rw [hstep]
  refine (accounts_check containerStatus_injective (fun _ => rfl) (fun _ => hawaited)
    (fun _ => result) ?_ id).mono ?_
    fun _ _ h => h
  · intro id status hextended
    exact ⟨(), (hiff status).mpr hextended⟩
  · intro _ trace hshown
    exact Sign.answers_mono hshown fun status hpasses => (hiff status).mp hpasses

def somePresence (p : ImageStatus → Prop) : Sign σ :=
  .someAnswers .imageStatus .imageStatus (fun _ => rfl)
    fun _ status => ∃ found, status = some found ∧ p found

def imageResult (image : Image) : Option ImageStatus → Except Error Unit
  | none => .error (.assertion ("image " ++ image.reference ++ " should be present"))
  | some found =>
    if found.volumes.isSome then .ok ()
    else .error (.assertion "the volumes of image should not be nil")

theorem imageResult_eq_ok_iff {image : Image} {status : Option ImageStatus} :
    imageResult image status = .ok () ↔
      ∃ found, status = some found ∧ found.volumes.isSome = true := by
  cases status with
  | none => simp [imageResult]
  | some found =>
    cases hvolumes : found.volumes <;> simp [imageResult, hvolumes]

/-- The image that a container reports is looked up after that, and must be there with volumes. -/
theorem accounts_checkImage (hawaited : scenario.awaited = none) (id : ContainerId) :
    Accounts scenario [.call .containerStatus, .call .imageStatus]
      (fun _ trace => ∃ image, Shows [.reports id (·.image = image),
        .presents image fun found => found.volumes.isSome = true] trace)
      (Lacks [someReport fun _ => True, somePresence fun found => found.volumes.isSome = true])
      (h.checkImage id) := by
  have hlookUp : ∀ status : ContainerStatus, Accounts scenario [.call .imageStatus]
      (fun _ => Shows [.presents status.image fun found => found.volumes.isSome = true])
      (Lacks [somePresence fun found => found.volumes.isSome = true])
      (h.call (.imageStatus status.image) >>= fun found =>
        Session.lift (imageResult status.image found)) := by
    intro status
    refine (accounts_check imageStatus_injective (fun _ => rfl) nofun imageResult ?_
      status.image).mono ?_ fun _ _ h => h
    · intro image value hvalue
      exact ⟨(), imageResult_eq_ok_iff.mpr hvalue⟩
    · intro _ trace hshown
      exact Sign.answers_mono hshown fun status hpasses => imageResult_eq_ok_iff.mp hpasses
  have hstep : h.checkImage id = h.containerStatus id >>= fun status =>
      h.call (.imageStatus status.image) >>= fun found =>
        Session.lift (imageResult status.image found) := by
    unfold checkImage
    congr
    funext status
    congr
    funext found
    cases found with
    | none => rfl
    | some found => exact require_eq_lift _ _
  rw [hstep]
  refine Accounts.bind (accounts_containerStatus hawaited id) hlookUp ?_ ?_ ?_
  · intro status _ trace more hshown hmore
    have hreport : Shows [.reports id (·.image = status.image)] trace :=
      Sign.answers_mono hshown fun value hvalue => congrArg ContainerStatus.image hvalue
    exact ⟨status.image, hreport.append hmore⟩
  · intro trace htrace _ hseen
    obtain ⟨note, hnote, hshown⟩ := hseen.tail.exists_mem
    exact Sign.not_shownBy (by decide : Deed.Kind.call .imageStatus ∉ _) htrace note hnote hshown
  · intro status trace more htrace _ hlacks hseen
    refine hlacks (hseen.tail.of_append_left ?_)
    exact Sign.not_shownBy (by decide : Deed.Kind.call .imageStatus ∉ _) htrace

def someRemoval : Sign σ :=
  .someAnswers .removeContainer .removeContainer (fun _ => rfl) fun _ _ => True

theorem removeContainer_injective : Function.Injective Request.removeContainer := by
  intro id other heq
  cases heq
  rfl

def HasVolume (status : ContainerStatus) : Prop :=
  (firstVolumeName? (status.mounts.getD [])).isSome = true

/-- A container must report a named volume before it is stopped and removed. -/
theorem accounts_checkVolumeRemoval (hawaited : scenario.awaited = none) (id : ContainerId) :
    Accounts scenario [.call .containerStatus, .call .stopContainer, .call .removeContainer]
      (fun _ => Shows [.reports id HasVolume, .stops h.client id, .removes id])
      (Lacks [someRemoval]) (h.checkVolumeRemoval id) := by
  have hremove : Accounts scenario [.call .stopContainer, .call .removeContainer]
      (fun _ => Shows [.stops h.client id, .removes id]) (Lacks [someRemoval])
      (h.stopContainer id h.config.stopContainerTimeout >>= fun _ => h.removeContainer id) :=
    Accounts.concluding (accounts_stopContainer id _)
      (by decide : Deed.Kind.call .removeContainer ∉ _)
      (fun _ => accounts_lastCall removeContainer_injective (fun _ => rfl) nofun id)
      fun _ _ _ _ hstopped hmore => hstopped.append hmore
  refine Accounts.concluding (accounts_containerStatus hawaited id)
    (by decide : Deed.Kind.call .removeContainer ∉ _) (fun status =>
      (show Accounts scenario [.call .stopContainer, .call .removeContainer]
        (fun _ trace => HasVolume status ∧ Shows [.stops h.client id, .removes id] trace)
        (Lacks [someRemoval]) _ from ?_)) ?_
  · cases hname : firstVolumeName? (status.mounts.getD []) with
    | none =>
      refine ((Accounts.lift _).widen (List.nil_subset _)).mono (fun _ _ hok => ?_) ?_
      · cases hok
      · rintro trace - rfl hseen
        obtain ⟨note, hnote, -⟩ := hseen.exists_mem
        cases hnote
    | some name =>
      refine hremove.mono (fun _ _ hmore => ⟨?_, hmore⟩) fun _ _ h => h
      rw [HasVolume, hname]
      rfl
  · rintro status _ trace more hshown ⟨hvolume, hmore⟩
    have hreport : Shows [.reports id HasVolume] trace :=
      Sign.answers_mono hshown fun value hvalue => hvalue ▸ hvolume
    exact hreport.append hmore

end Harness

end

end ContainerCheck.Check
