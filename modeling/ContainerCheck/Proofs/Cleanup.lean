import ContainerCheck.Proofs.GuardedPaths
import ContainerCheck.Proofs.HealthyLogs

namespace ContainerCheck

open ContainerCheck.Cri ContainerCheck.Host ContainerCheck.Text

variable {σ : Type}

/-- The names that host paths can have, or links to them, if a runtime gives sandboxes names with
slashes in them. -/
def Cri.Client.Astray (client : Client σ) (name : String) : Prop :=
  '/' ∈ name.toList ∧ ∃ config now store id suffix,
    (client.answer (.runSandbox config) now store).value = .ok id ∧ IsName suffix ∧
      name = "test" ++ id.text ++ suffix

/-- A runtime that adds nothing to the home of temporary directories and removes nothing from it.
It may change files there, and do what it wants below its directories; only host paths that are
elsewhere, for the slashes in their names, must stay where they are. -/
def Cri.Client.SparesHome (client : Client σ) : Prop :=
  client.Respects (Store.SparesHome client.Astray)

/-- A runtime that gives sandboxes plain names keeps every way by keeping the home. -/
theorem Cri.Client.sparesHome_of_plain {client : Client σ}
    (hplain : ∀ config now store id,
      (client.answer (.runSandbox config) now store).value = .ok id → '/' ∉ id.text.toList)
    (hclient : client.Respects fun before after =>
      before.tree.Sound → before.tree.SameEntries after.tree ∧ after.tree.Sound) :
    client.SparesHome := by
  refine hclient.imp fun h hs => ⟨(h hs).1, (h hs).2, ?_⟩
  rintro name ⟨hslash, config, now, store, id, suffix, hid, hsuffix, rfl⟩
  simp only [String.toList_append, List.mem_append] at hslash
  rcases hslash with (htest | hname) | hlast
  · exact absurd htest (by decide)
  · exact absurd hname (hplain config now store id hid)
  · exact absurd hlast hsuffix.noSlash

/-- A runtime whose sandbox has a name with slashes in it. It lets a container wait, and removes a
directory on the way that such a name takes instead of starting one. -/
def Cri.Client.wayward : Client Unit where
  answer request now store :=
    match request with
    | .runSandbox _ => { value := .ok ⟨"a/b/../../z"⟩, store := store }
    | .imageStatus image => { value := .ok (some ⟨image.reference, none⟩), store := store }
    | .createContainer .. => { value := .ok ⟨"container"⟩, store := store }
    | .startContainer _ =>
      { value := .error "unavailable"
        store := { store with tree := store.tree.prune ["tmp", "testa", "b"] } }
    | .containerStatus id =>
      { value := .ok { id := id, state := if now = 0 then .unknown else .created }
        store := store }
    | _ => { value := .error "unavailable", store := store }
  stop _ _ _ store := { value := none, store := store }

namespace Check

open ContainerCheck.Session

theorem isKeptStem_owner {client : Client σ} {config : SandboxConfig} {now : Nat}
    {store : Store σ} {id : SandboxId}
    (hid : (client.answer (.runSandbox config) now store).value = .ok id) :
    IsKeptStem client.Astray ("test" ++ id.text) := by
  have hlength : "test".toList.length = 4 := by decide
  refine ⟨stem_ne_empty id.text, fun suffix hsuffix => ?_⟩
  by_cases hslash : '/' ∈ ("test" ++ id.text ++ suffix).toList
  · exact .inr ⟨hslash, config, now, store, id, suffix, hid, hsuffix, rfl⟩
  · refine .inl (.of_long hslash ?_)
    simp only [String.toList_append, List.length_append, hlength]
    omega

theorem isKeptStem_log (names : String → Prop) : IsKeptStem names "podLogTest" := by
  refine ⟨by decide, fun suffix hsuffix => .inl (.of_long ?_ ?_)⟩
  · rw [String.toList_append, List.mem_append, not_or]
    exact ⟨by decide, hsuffix.noSlash⟩
  · have hlength : "podLogTest".toList.length = 10 := by decide
    rw [String.toList_append, List.length_append, hlength]
    omega

namespace Harness

variable {h : Harness σ} (hclient : h.client.SparesHome)
include hclient

section

variable {fixture : Fixture} (howner : IsKeptStem h.client.Astray ("test" ++ fixture.id.text))
include howner

theorem conductsHosts_restoresHome :
    h.ConductsHosts (RestoresHome h.client.Astray h.client.Astray) fixture.id.text where
  toConducts := conducts_restoresHome hclient fun _ hname => hname
  fails _ _ _ := restoresHome_ask hclient (fun _ hname => hname) _ _ _
  directories hbody _ := restoresHome_withDirectory howner fun path w' _ => hbody path w'
  links hbody _ := restoresHome_withDirectory howner fun _ _ hheld =>
    restoresHome_withLink howner hheld hbody

end

/-- A sandbox is run, stopped and removed without harm to the home. -/
theorem restoresHome_startFixture {kept : String → Prop}
    (hkept : ∀ name, kept name → h.client.Astray name) (stem : String)
    (directory : Option String) :
    Obeys (RestoresHome h.client.Astray kept) (h.startFixture stem directory) :=
  obeys_startFixture h (conducts_restoresHome hclient hkept)
    (fun _ w => restoresHome_ask hclient hkept _ w _) stem directory

theorem restoresHome_tells {kept : String → Prop}
    (hkept : ∀ name, kept name → h.client.Astray name) (id : SandboxId) (w : World σ) :
    RestoresHome h.client.Astray kept w none
      (h.tell (.removeSandbox id) (h.tell (.stopSandbox id) w)) :=
  restoresHome_composes.andThen (restoresHome_ask hclient hkept _ w none)
    (restoresHome_ask hclient hkept _ _ none)

omit hclient in
theorem run_snd_of_ok {scenario : Scenario} {fixture : Fixture} {w w' : World σ}
    (heq : h.runSandboxFor scenario w = (.ok fixture, w')) :
    (h.run scenario w).2 = h.release fixture (h.runIn fixture scenario w').2 := by
  unfold run
  rw [withFixture_run, heq]

omit hclient in
theorem run_snd_of_error {scenario : Scenario} {error : Error} {w w' : World σ}
    (heq : h.runSandboxFor scenario w = (.error error, w')) : (h.run scenario w).2 = w' := by
  unfold run
  rw [withFixture_run, heq]

theorem restoresHome_run_of_not_hasLogs {scenario : Scenario} (hlogs : scenario.hasLogs = false)
    (w : World σ) :
    RestoresHome h.client.Astray h.client.Astray w none (h.run scenario w).2 := by
  have hself : ∀ name, h.client.Astray name → h.client.Astray name := fun _ hname => hname
  have hplain : h.runSandboxFor scenario =
      h.startFixture "create-PodSandbox-for-container-" none := by
    rw [runSandboxFor_eq, hlogs, ← runSandbox_eq]
    rfl
  have hstart := restoresHome_startFixture hclient hself "create-PodSandbox-for-container-" none w
  rw [← hplain] at hstart
  rcases heq : h.runSandboxFor scenario w with ⟨result, w'⟩
  rw [heq] at hstart
  cases result with
  | error error => exact run_snd_of_error heq ▸ hstart
  | ok fixture =>
    obtain ⟨hown, -, config, now, store, hid⟩ := startFixture_run_eq_ok h (hplain ▸ heq)
    -- Host paths are named for the sandbox, whose name is one that the runtime gives.
    have hhosts := conductsHosts_restoresHome hclient (isKeptStem_owner hid)
    have hbody := obeys_runIn_of_not_hasLogs hhosts hlogs w'
    have hrelease : h.release fixture (h.runIn fixture scenario w').2 =
        h.tell (.removeSandbox fixture.id)
          (h.tell (.stopSandbox fixture.id) (h.runIn fixture scenario w').2) := by
      unfold release
      rw [hown]
    rw [run_snd_of_ok heq, hrelease]
    refine restoresHome_composes.andThen hstart (restoresHome_composes.andThen ?_
      (restoresHome_tells hclient hself fixture.id _))
    exact hbody

omit hclient in
theorem hasLog_of_held {names : String → Prop} {before first : Tree} {path : String}
    (hheld : Held names before "podLogTest" (.directory path) first) : first.HasLog path := by
  obtain ⟨suffix, hsuffix, hpath⟩ := hheld.path
  obtain ⟨entry, node, hguards, harrival⟩ := hheld.arrival
  obtain rfl := hguards
  have hg := harrival.sound.toGrounded
  have hname : IsName ("podLogTest" ++ suffix) := by
    rcases (isKeptStem_log fun _ => False).kept suffix hsuffix with hname | hfalse
    · exact hname
    · exact hfalse.elim
  have heq : path = pathOf (first.home ++ ["podLogTest" ++ suffix]) := by
    rw [harrival.same.home, show path = _ from hpath]
    exact joinPath_pathOf (harrival.same.home ▸ hg.isName) hname
  have hleads := harrival.leads
  rw [show (Guard.directory path).path = _ from heq] at hleads
  obtain ⟨hhome, rfl⟩ :=
    Tree.isHomePath_of_entryOf hg.standing hname hleads harrival.free.short
  exact ⟨suffix, heq ▸ hhome, harrival.arrived⟩

omit hclient in
theorem hasLog_of_sameEntries {before after : Tree} {path : String}
    (hlog : before.HasLog path) (hsame : before.SameEntries after) : after.HasLog path := by
  obtain ⟨suffix, hpath, hdirectory⟩ := hlog
  refine ⟨suffix, hsame.home ▸ hpath, ?_⟩
  rw [hsame.home]
  exact hsame.find? hdirectory nofun

def RestoresBeside (names : String → Prop) (path : String) : Conduct σ := fun w outcome w' =>
  w.tree.HasLog path → RestoresHome names (fun _ => False) w outcome w'

omit hclient in
theorem restoresBeside_composes (names : String → Prop) (path : String) :
    Conduct.Composes (RestoresBeside names path : Conduct σ) where
  rest w _ := restoresHome_composes.rest w
  andThen hfirst hnext hlog hcalm := by
    obtain ⟨hcalm', hsame⟩ := hfirst hlog hcalm
    have hlog' := hasLog_of_sameEntries hlog hsame.toSameEntries
    obtain ⟨hcalm'', hsame'⟩ := hnext hlog' hcalm'
    exact ⟨hcalm'', hsame.trans hsame'⟩
  giveUp _ hrest := hrest

theorem conducts_restoresBeside (path : String) : h.Conducts (RestoresBeside h.client.Astray path) :=
  (conducts_restoresHome hclient (fun _ => False.elim)).imp (restoresBeside_composes _ path)
    fun hrestores _ => hrestores

omit hclient in
/-- A log is put aside in its directory. -/
theorem renames_restoresBeside (names : String → Prop) (directory : String) {file : String}
    (hfile : IsLogName file) :
    Renames (RestoresBeside names directory : Conduct σ) (joinPath directory file) := by
  rintro w content hread ⟨suffix, hpath, hdirectory⟩ hcalm
  have hg := hcalm.sound.toGrounded
  have hnames : ∀ name ∈ w.tree.home ++ ["podLogTest" ++ suffix], IsName name := by
    intro name hname
    rcases List.mem_append.mp hname with hmem | hmem
    · exact hg.isName name hmem
    · exact List.mem_singleton.mp hmem ▸ hpath.isName
  have hjoin : joinPath directory file =
      pathOf (w.tree.home ++ ["podLogTest" ++ suffix] ++ [file]) := by
    rw [hpath.path_eq]
    exact joinPath_pathOf hnames hfile.toIsName
  rw [hjoin] at hread ⊢
  rw [pathOf_concat_append]
  unfold Session.rename changeTree
  split
  · next tree hrename =>
    have hsame := Tree.sameHome_rename hcalm.sound hdirectory hpath.isName hpath.short
      hfile.toIsName hfile.rotated.toIsName hread hrename
    exact ⟨⟨hsame.sound, hcalm.pending⟩, hsame⟩
  · exact ⟨⟨hcalm.sound, hcalm.pending⟩, .refl hcalm.sound⟩

theorem restoresBeside_runIn {scenario : Scenario} (hlogs : scenario.hasLogs = true)
    {fixture : Fixture} {directory : String}
    (hdirectory : fixture.config.logDirectory = some directory) :
    Obeys (RestoresBeside h.client.Astray directory) (h.runIn fixture scenario) := by
  have hconducts := conducts_restoresBeside hclient directory
  cases scenario with
  | startWithLog => exact obeys_runIn_startWithLog hconducts fixture
  | reopenLog =>
    refine obeys_runIn_reopenLog_of_renames hconducts fun config path n hfile hlog => ?_
    obtain ⟨found, file, hfound, hfile', rfl⟩ := logsTo_of_containerLog hlog
    obtain rfl := Option.some.inj (hfound.symm.trans hdirectory)
    obtain rfl := Option.some.inj (hfile'.symm.trans hfile)
    exact renames_restoresBeside _ found (isLogName_fresh (by decide) (by decide) n)
  | _ => cases hlogs

section

variable {w w' : World σ} (hcalm : w.HomeCalm h.client.Astray)
include hcalm

/-- A sandbox is run beside the log directory that has been made for it. -/
theorem held_startFixture {directory : String} {w₁ w₂ : World σ} {result : Except Error Fixture}
    (hmade : Session.makeTemporary "podLogTest" w = (.ok directory, w₁))
    (hstarted : h.startFixture "PodSandbox-with-log-directory-" (some directory) w₁ =
      (result, w₂)) :
    Held (fun _ => False) w.tree "podLogTest" (.directory directory) w₁.tree ∧
      w₂.HomeCalm h.client.Astray ∧ w₁.tree.SameHome (fun _ => False) w₂.tree := by
  have hheld := held_makeTemporary hcalm.sound (isKeptStem_log fun _ => False) hmade
  obtain ⟨-, hpending, -⟩ := makeTemporary_run_eq_ok hmade
  have hstart := restoresHome_startFixture hclient (fun _ => False.elim)
    "PodSandbox-with-log-directory-" (some directory) w₁
  rw [hstarted] at hstart
  exact ⟨hheld, hstart ⟨hheld.sound, hcalm.pending.same hpending⟩⟩

/-- A sandbox that is run with logs holds its log directory. -/
theorem runSandboxWithLogs_run_eq_ok {fixture : Fixture}
    (hrun : h.runSandboxWithLogs w = (.ok fixture, w')) : ∃ directory first,
      fixture.ownDirectory = some directory ∧ fixture.config.logDirectory = some directory ∧
        Held (fun _ => False) w.tree "podLogTest" (.directory directory) first ∧
          w'.HomeCalm h.client.Astray ∧ first.SameHome (fun _ => False) w'.tree := by
  rw [runSandboxWithLogs_eq] at hrun
  obtain ⟨directory, w₁, hmade, hrest⟩ := bind_run_eq_ok hrun
  have hstarted := orDiscard_run_eq_ok hrest
  obtain ⟨hown, hlog, -⟩ := startFixture_run_eq_ok h hstarted
  exact ⟨directory, w₁.tree, hown, hlog, held_startFixture hclient hcalm hmade hstarted⟩

/-- A sandbox that cannot be run leaves no log directory behind. -/
theorem runSandboxWithLogs_run_eq_error {error : Error}
    (hrun : h.runSandboxWithLogs w = (.error error, w')) :
    w'.HomeCalm h.client.Astray ∧ w.tree.SameHome (fun _ => False) w'.tree := by
  rw [runSandboxWithLogs_eq] at hrun
  rcases bind_run_eq_error hrun with hfailed | ⟨directory, w₁, hmade, hrest⟩
  · obtain ⟨htree, hpending⟩ := makeTemporary_run_eq_error hfailed
    have hsame : w.tree.SameHome (fun _ => False) w'.tree := by
      rw [htree]
      exact .refl hcalm.sound
    exact ⟨⟨hsame.sound, hcalm.pending.same hpending⟩, hsame⟩
  · obtain ⟨w₂, hstarted, rfl⟩ := orDiscard_run_eq_error hrest
    obtain ⟨hheld, hcalm', hsame⟩ := held_startFixture hclient hcalm hmade hstarted
    have hgone := hheld.drop hcalm.sound hsame
    have hpending := Guard.pending_drop (.directory directory) w₂
    exact ⟨⟨hgone.sound, hcalm'.pending.same hpending⟩, hgone⟩

end

theorem restoresHome_run_of_hasLogs {scenario : Scenario} (hlogs : scenario.hasLogs = true)
    (w : World σ) :
    RestoresHome h.client.Astray (fun _ => False) w none (h.run scenario w).2 := by
  intro hcalm
  have hlogged : h.runSandboxFor scenario = h.runSandboxWithLogs := by
    rw [runSandboxFor_eq, hlogs, if_pos rfl]
  rcases heq : h.runSandboxFor scenario w with ⟨result, w'⟩
  cases result with
  | error error =>
    rw [run_snd_of_error heq]
    exact runSandboxWithLogs_run_eq_error hclient hcalm (hlogged ▸ heq)
  | ok fixture =>
    obtain ⟨directory, first, hown, hlog, hheld, hcalm', hsame⟩ :=
      runSandboxWithLogs_run_eq_ok hclient hcalm (hlogged ▸ heq)
    have hhas : w'.tree.HasLog directory :=
      hasLog_of_sameEntries (hasLog_of_held hheld) hsame.toSameEntries
    obtain ⟨hcalm'', hsame'⟩ := restoresBeside_runIn hclient hlogs hlog w' hhas hcalm'
    obtain ⟨hreleased, hsame''⟩ :=
      restoresHome_tells hclient (fun _ => False.elim) fixture.id _ hcalm''
    -- The log directory goes last, once the sandbox has been removed.
    have hgone := hheld.drop hcalm.sound ((hsame.trans hsame').trans hsame'')
    have hrelease : h.release fixture (h.runIn fixture scenario w').2 =
        (Guard.directory directory).drop (h.tell (.removeSandbox fixture.id)
          (h.tell (.stopSandbox fixture.id) (h.runIn fixture scenario w').2)) := by
      unfold release
      rw [hown]
      rfl
    rw [run_snd_of_ok heq, hrelease]
    exact ⟨⟨hgone.sound, hreleased.pending.same (Guard.pending_drop _ _)⟩, hgone⟩

theorem restoresHome_run (scenario : Scenario) :
    Obeys (RestoresHome h.client.Astray fun _ => False) (h.run scenario) := by
  intro w hcalm
  cases hlogs : scenario.hasLogs with
  | true => exact restoresHome_run_of_hasLogs hclient hlogs w hcalm
  | false =>
    obtain ⟨hcalm', hsame⟩ := restoresHome_run_of_not_hasLogs hclient hlogs w hcalm
    exact ⟨hcalm', hsame.mono fun _ => False.elim⟩

/-- A scenario leaves the home of temporary directories with the entries that it found there,
whatever it ends with. -/
theorem run_cleansUp (scenario : Scenario) {w : World σ} (hcalm : w.HomeCalm h.client.Astray) :
    (h.run scenario w).2.HomeCalm h.client.Astray ∧
      w.tree.SameEntries (h.run scenario w).2.tree ∧
        ∀ name, name ∈ (h.run scenario w).2.tree.children (h.run scenario w).2.tree.home ↔
          name ∈ w.tree.children w.tree.home := by
  obtain ⟨hcalm', hsame⟩ := restoresHome_run hclient scenario w hcalm
  exact ⟨hcalm', hsame.toSameEntries, hsame.toSameEntries.mem_children⟩

omit hclient in
/-- A runtime that starts no container leaves nothing of a host path, nor of the link to it. -/
theorem run_cleansUp_startless :
    let h : Harness Unit := ⟨.startless, {}⟩
    let w := World.start ⟨[(["tmp"], .directory), (["tmp", "notes"], .file [])], ["tmp"]⟩ ()
    h.client.SparesHome ∧ w.HomeCalm h.client.Astray ∧
      (h.run .startWithLinkedVolume w).2.HomeCalm h.client.Astray ∧
        w.tree.SameEntries (h.run .startWithLinkedVolume w).2.tree ∧
          ∀ name, name ∈ (h.run .startWithLinkedVolume w).2.tree.children
              (h.run .startWithLinkedVolume w).2.tree.home ↔
            name ∈ w.tree.children w.tree.home := by
  intro h w
  have hclient : h.client.SparesHome := by
    refine Cri.Client.sparesHome_of_plain ?_ ⟨?_, ?_⟩
    · rintro config now store id hanswer
      cases hanswer
      decide
    · intro request now store
      cases request <;> exact ⟨fun hs => ⟨.refl _, hs⟩, nofun⟩
    · exact fun id timeout now store => ⟨fun hs => ⟨.refl _, hs⟩, nofun⟩
  have hsound : w.tree.Sound :=
    Tree.sound_of_entries rfl (.of_long (by decide) (by decide)) (by decide) rfl (by decide)
  have hcalm : w.HomeCalm h.client.Astray := ⟨hsound, nofun⟩
  exact ⟨hclient, hcalm, run_cleansUp hclient .startWithLinkedVolume hcalm⟩

omit hclient in
/-- Though a runtime keeps all entries of the home, a host path and the link to it stay there once it
has removed what their names lead through, and so does what somebody else makes in the meantime. -/
theorem run_litters :
    let h : Harness Unit := ⟨.wayward, {}⟩
    let w := World.start ⟨[(["tmp"], .directory), (["tmp", "testa"], .directory),
      (["tmp", "testa", "b"], .directory)], ["tmp"]⟩ ()
    let w' := { w with pending := [.ofAction 1 (.write "x" [])] }
    (h.client.Respects fun before after =>
      before.tree.home = ["tmp"] → before.tree.SameEntries after.tree) ∧
    w.tree.Sound ∧ w.tree.children ["tmp"] = ["testa"] ∧
    (h.run .startWithLinkedVolume w).2.tree.children ["tmp"] =
      ["zZq0002-symlink", "zZq0002", "testa"] ∧
    (h.run .createContainer w').2.tree.children ["tmp"] = ["x", "testa"] := by
  refine ⟨⟨?_, fun id timeout now store => ⟨fun _ => .refl _, nofun⟩⟩, ?_, rfl, ?_, ?_⟩
  · intro request now store
    cases request with
    | startContainer id =>
      refine ⟨fun hhome => ⟨rfl, fun name => ?_⟩, nofun⟩
      rw [hhome]
      exact congrArg (Option.map Node.bare) (Tree.find?_prune (by simp) _)
    | _ => exact ⟨fun _ => .refl _, nofun⟩
  · exact Tree.sound_of_entries rfl (.of_long (by decide) (by decide)) (by decide) rfl (by decide)
  · rfl
  · rfl

end Harness

end Check

end ContainerCheck
