import ContainerCheck.Proofs.LogDirectories

namespace ContainerCheck

open ContainerCheck.Cri ContainerCheck.Host ContainerCheck.Text

variable {σ : Type}

namespace World

theorem toList_freshSuffix (n : Nat) : (freshSuffix n).toList = 'Z' :: 'q' :: fixed 4 n :=
  String.toList_ofList

/-- A stem with a fresh suffix is a name of a file. -/
theorem isName_fresh {stem : String} (hstem : '/' ∉ stem.toList) (n : Nat) :
    IsName (stem ++ freshSuffix n) := by
  refine .of_long ?_ ?_
  · rw [String.toList_append, toList_freshSuffix]
    intro hslash
    rcases List.mem_append.mp hslash with hmem | hmem
    · exact hstem hmem
    · simp only [List.mem_cons] at hmem
      rcases hmem with hmem | hmem | hmem
      · cases hmem
      · cases hmem
      · have hdigit := isDigit_of_mem_fixed hmem
        cases hdigit
  · rw [String.toList_append, List.length_append, toList_freshSuffix]
    simp

theorem isName_log (n : Nat) : IsName ("podLogTest" ++ freshSuffix n) :=
  isName_fresh (by decide) n

/-- What a fresh directory is, once one has been made. -/
theorem makeTemporary_ok {parent stem path : String} {attempts : Nat} {w w' : World σ}
    (h : w.makeTemporary parent stem attempts = (.ok path, w')) :
    ∃ n, path = joinPath parent (stem ++ freshSuffix n) ∧
      w.tree.makeDirectory path = .ok w'.tree ∧ w'.pending = w.pending := by
  induction attempts generalizing w with
  | zero => cases h
  | succ attempts ih =>
    unfold makeTemporary at h
    dsimp only at h
    split at h
    · next tree hmade =>
      cases h
      exact ⟨w.drawn, rfl, hmade, rfl⟩
    -- A name that is taken changes nothing but the number that is drawn next.
    · split at h
      · have hlater := ih h
        exact hlater
      · cases h

theorem makeTemporary_error {parent stem : String} {fault : IoFault} {attempts : Nat}
    {w w' : World σ} (h : w.makeTemporary parent stem attempts = (.error fault, w')) :
    w'.tree = w.tree ∧ w'.pending = w.pending := by
  induction attempts generalizing w with
  | zero =>
    cases h
    exact ⟨rfl, rfl⟩
  | succ attempts ih =>
    unfold makeTemporary at h
    dsimp only at h
    split at h
    · cases h
    · split at h
      · have hlater := ih h
        exact hlater
      · cases h
        exact ⟨rfl, rfl⟩

end World

namespace Host.Tree

/-- A log directory that is made is new, and harms no other one. -/
theorem makeDirectory_log {tree tree' : Tree} {n : Nat} {path : String} (hg : tree.Grounded)
    (hpath : path = joinPath (pathOf tree.home) ("podLogTest" ++ World.freshSuffix n))
    (h : tree.makeDirectory path = .ok tree') :
    tree.Spares tree' ∧ tree'.HasLog path ∧ ¬ tree.HasLog path := by
  have hname := World.isName_log n
  rw [joinPath_pathOf hg.isName hname] at hpath
  subst hpath
  obtain ⟨hhome, hfree, rfl⟩ := makeDirectory_home hg hname h
  have hput := find?_put tree (List.concat_ne_nil ("podLogTest" ++ World.freshSuffix n) tree.home)
    .directory
  refine ⟨⟨rfl, ?_⟩, ⟨World.freshSuffix n, hhome, (hput _).trans (if_pos rfl)⟩, ?_⟩
  · intro place _ hdir
    rw [hput]
    split
    · rfl
    · exact hdir
  · rintro ⟨suffix, hother, hdir⟩
    have hplaces := congrArg namesOf hother.path_eq
    rw [namesOf_pathOf_concat hg.isName hname, namesOf_pathOf_concat hg.isName hother.isName]
      at hplaces
    rw [← hplaces, hfree] at hdir
    cases hdir

end Host.Tree

namespace Check

open ContainerCheck.Session

theorem makeTemporary_run_eq_ok {stem path : String} {w w' : World σ}
    (h : Session.makeTemporary stem w = (.ok path, w')) :
    w.tree.makeDirectory path = .ok w'.tree ∧ w'.pending = w.pending ∧
      ∃ n, path = joinPath w.home (stem ++ World.freshSuffix n) := by
  unfold Session.makeTemporary at h
  rcases hmade : (w.noteNow (.makeTemporary stem)).makeTemporary w.home stem World.nameAttempts with
    ⟨made, w''⟩
  rw [hmade] at h
  cases made with
  | error fault => cases h
  | ok made =>
    cases h
    obtain ⟨n, hpath, hmake, hpending⟩ := World.makeTemporary_ok hmade
    exact ⟨hmake, hpending, n, hpath⟩

theorem makeTemporary_run_eq_error {stem : String} {w w' : World σ} {error : Error}
    (h : Session.makeTemporary stem w = (.error error, w')) :
    w'.tree = w.tree ∧ w'.pending = w.pending := by
  unfold Session.makeTemporary at h
  rcases hmade : (w.noteNow (.makeTemporary stem)).makeTemporary w.home stem World.nameAttempts with
    ⟨made, w''⟩
  rw [hmade] at h
  cases made with
  | error fault =>
    cases h
    have hsame := World.makeTemporary_error hmade
    exact hsame
  | ok made => cases h

theorem makeTemporary_log {w w' : World σ} {directory : String} (hcalm : w.Calm)
    (h : Session.makeTemporary "podLogTest" w = (.ok directory, w')) :
    w'.Calm ∧ w.tree.Spares w'.tree ∧ w'.tree.HasLog directory ∧ ¬ w.tree.HasLog directory := by
  obtain ⟨hmake, hpending, n, hpath⟩ := makeTemporary_run_eq_ok h
  obtain ⟨hspares, hlog, hnew⟩ := Tree.makeDirectory_log hcalm.grounded hpath hmake
  exact ⟨⟨hspares.grounded hcalm.grounded, hcalm.pending.same hpending⟩, hspares, hlog, hnew⟩

theorem keepsLogs_makeTemporary_error {w w' : World σ} {error : Error}
    (h : Session.makeTemporary "podLogTest" w = (.error error, w')) (outcome : Option Error) :
    KeepsLogs w outcome w' := by
  obtain ⟨htree, hpending⟩ := makeTemporary_run_eq_error h
  exact keepsLogs_same w w' htree hpending outcome

/-- A log directory that is discarded is gone, and the others stay. -/
theorem discard_log {w : World σ} {directory : String} (hcalm : w.Calm)
    (hlog : w.tree.HasLog directory) :
    (w.discard directory).Calm ∧ (w.discard directory).tree.exists? directory = .ok false ∧
      ∀ other, w.tree.HasLog other → other ≠ directory →
        (w.discard directory).tree.HasLog other := by
  obtain ⟨tree, hremove, hg, hgone, hothers⟩ := Tree.removeAll_log hcalm.grounded hlog
  have hdiscard : w.discard directory = w.setTree tree := by
    unfold World.discard
    rw [hremove]
  rw [hdiscard]
  exact ⟨⟨hg, hcalm.pending⟩, hgone, hothers⟩

namespace Harness

/-- How a step may run a sandbox with logs: no call is made, or one call that leaves the log
directory behind if it was answered with a sandbox, and only then. -/
inductive LogsAcquired (w : World σ) : Except Error Fixture → World σ → Prop
  | unmade {w' : World σ} (error : Error) (hmade : w.Made [] w') : LogsAcquired w (.error error) w'
  | refused {w' : World σ} {call : Call σ} {config : SandboxConfig} {directory : String}
    (message : String) (hmade : w.Made [call] w')
    (hcall : call.exchange = .asked (.runSandbox config) (.error message))
    (hlogs : config.logDirectory = some directory)
    (hgone : w'.tree.exists? directory = .ok false) :
    LogsAcquired w (.error (.runtime .runPodSandbox message)) w'
  | ran {w' : World σ} {call : Call σ} {directory : String} (fixture : Fixture)
    (hmade : w.Made [call] w')
    (hcall : call.exchange = .asked (.runSandbox fixture.config) (.ok fixture.id))
    (hlogs : fixture.config.logDirectory = some directory)
    (hown : fixture.ownDirectory = some directory) (hnew : ¬ w.tree.HasLog directory)
    (hlog : w'.tree.HasLog directory) : LogsAcquired w (.ok fixture) w'

/-- A refused sandbox leaves no log directory behind. -/
theorem LogsAcquired.gone {w w' : World σ} {result : Except Error Fixture}
    (ha : LogsAcquired w result w') {call : Call σ} (hcall : w.Made [call] w')
    {config : SandboxConfig} {message directory : String}
    (hexchange : call.exchange = .asked (.runSandbox config) (.error message))
    (hdirectory : config.logDirectory = some directory) :
    w'.tree.exists? directory = .ok false := by
  cases ha with
  | unmade error hmade => cases hcall.unique hmade
  | refused message' hmade hrefused hlogs hgone =>
    cases hcall.unique hmade
    rw [hrefused] at hexchange
    cases hexchange
    rw [hlogs] at hdirectory
    cases hdirectory
    exact hgone
  | ran fixture hmade hran =>
    cases hcall.unique hmade
    rw [hran] at hexchange
    cases hexchange

variable {h : Harness σ} (hclient : h.client.SparesLogs)
include hclient

/-- The log directory of a sandbox is there at both calls that release it, and then gone. -/
theorem release_log {fixture : Fixture} {directory : String} {w : World σ}
    (hown : fixture.ownDirectory = some directory) (hcalm : w.Calm)
    (hlog : w.tree.HasLog directory) :
    (∀ call ∈ [h.stopSandboxCall fixture.id w, h.removeSandboxCall fixture.id w],
      call.before.tree.exists? directory = .ok true) ∧
      (h.release fixture w).Calm ∧ (h.release fixture w).tree.exists? directory = .ok false ∧
      ∀ other, w.tree.HasLog other → other ≠ directory →
        (h.release fixture w).tree.HasLog other := by
  obtain ⟨hcalm', hspares⟩ := keepsLogs_ask hclient (.stopSandbox fixture.id) w none hcalm
  have hlog' := hlog.spares hspares
  obtain ⟨hcalm'', hspares'⟩ := keepsLogs_ask hclient (.removeSandbox fixture.id)
    (h.tell (.stopSandbox fixture.id) w) none hcalm'
  obtain ⟨hend, hgone, hothers⟩ := discard_log hcalm'' (hlog'.spares hspares')
  have hrelease : h.release fixture w =
      (h.tell (.removeSandbox fixture.id) (h.tell (.stopSandbox fixture.id) w)).discard
        directory := by
    unfold release
    rw [hown]
  rw [hrelease]
  refine ⟨?_, hend, hgone, ?_⟩
  · intro call hcall
    simp only [List.mem_cons, List.not_mem_nil, or_false] at hcall
    rcases hcall with rfl | rfl
    · exact hlog.exists? hcalm.grounded
    · exact hlog'.exists? hcalm'.grounded
  · intro other hother hne
    exact hothers other ((hother.spares hspares).spares hspares') hne

/-- A sandbox without a log directory is released without harm to the others. -/
theorem keepsLogs_release {fixture : Fixture} (hown : fixture.ownDirectory = none) (w : World σ) :
    KeepsLogs w none (h.release fixture w) := by
  have hrelease : h.release fixture w =
      h.tell (.removeSandbox fixture.id) (h.tell (.stopSandbox fixture.id) w) := by
    unfold release
    rw [hown]
  rw [hrelease]
  exact keepsLogs_composes.andThen (keepsLogs_ask hclient (.stopSandbox fixture.id) w none)
    (keepsLogs_ask hclient (.removeSandbox fixture.id) _ none)

/-- A sandbox is run in a log directory that has been made for it. -/
theorem startFixture_logs {w w' : World σ} {directory : String} (hcalls : w'.calls = w.calls)
    (hcalm : w'.Calm) (hspares : w.tree.Spares w'.tree) (hlog : w'.tree.HasLog directory)
    (hnew : ¬ w.tree.HasLog directory) {outcome : Except Error Fixture × World σ}
    (houtcome : Session.orDiscard directory
      (h.startFixture "PodSandbox-with-log-directory-" (some directory)) w' = outcome) :
    LogsAcquired w outcome.1 outcome.2 ∧ outcome.2.Calm ∧
      ∀ other, w.tree.HasLog other → outcome.2.tree.HasLog other := by
  obtain ⟨config, hlogs, hrun⟩ :=
    startFixture_run h "PodSandbox-with-log-directory-" (some directory) w'
  have hmade : w.Made [h.client.callOf (.runSandbox config) (w'.draw 2)]
      (h.client.ask (.runSandbox config) (w'.draw 2)).2 :=
    (World.Made.nil (hcalls : (w'.draw 2).calls = w.calls)).append (.ask h.client _ _)
  have hkeeps := keepsLogs_composes.andThen (keepsLogs_same w' (w'.draw 2) rfl rfl none)
    (keepsLogs_ask hclient (.runSandbox config) (w'.draw 2) none)
  obtain ⟨hcalm', hspares'⟩ := hkeeps hcalm
  have hothers : ∀ other, w.tree.HasLog other →
      (h.client.ask (.runSandbox config) (w'.draw 2)).2.tree.HasLog other :=
    fun other hother => (hother.spares hspares).spares hspares'
  simp only [Session.orDiscard, hrun] at houtcome
  cases hanswer : (h.client.ask (.runSandbox config) (w'.draw 2)).1 with
  | ok id =>
    rw [hanswer] at houtcome
    subst houtcome
    refine ⟨.ran ⟨id, config, some directory⟩ hmade ?_ hlogs rfl hnew (hlog.spares hspares'),
      hcalm', hothers⟩
    rw [Client.callOf, hanswer]
  | error message =>
    rw [hanswer] at houtcome
    subst houtcome
    obtain ⟨hend, hgone, hstay⟩ := discard_log hcalm' (hlog.spares hspares')
    refine ⟨.refused message (hmade.sameCalls (World.calls_discard _ directory)) ?_ hlogs hgone,
      hend, ?_⟩
    · rw [Client.callOf, hanswer]
    · intro other hother
      apply hstay other (hothers other hother)
      -- The directory that is discarded was not there before, so it is no other one.
      rintro rfl
      exact hnew hother

theorem runSandboxWithLogs_logs {w : World σ} (hcalm : w.Calm) :
    LogsAcquired w (h.runSandboxWithLogs w).1 (h.runSandboxWithLogs w).2 ∧
      (h.runSandboxWithLogs w).2.Calm ∧
      ∀ other, w.tree.HasLog other → (h.runSandboxWithLogs w).2.tree.HasLog other := by
  have hcalls := calls_makeTemporary "podLogTest" w
  rw [runSandboxWithLogs_eq, bind_run]
  rcases hmake : Session.makeTemporary "podLogTest" w with ⟨made, w'⟩
  rw [hmake] at hcalls
  cases made with
  | error error =>
    obtain ⟨hend, hspares⟩ := keepsLogs_makeTemporary_error hmake none hcalm
    exact ⟨.unmade error (.nil hcalls), hend, fun other hother => hother.spares hspares⟩
  | ok directory =>
    obtain ⟨hcalm', hspares, hlog, hnew⟩ := makeTemporary_log hcalm hmake
    exact startFixture_logs hclient hcalls hcalm' hspares hlog hnew rfl

end Harness

end Check

end ContainerCheck
