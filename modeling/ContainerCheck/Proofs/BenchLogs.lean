import ContainerCheck.Proofs.BenchCalls
import ContainerCheck.Proofs.LogSandbox

namespace ContainerCheck.Check

open ContainerCheck.Cri ContainerCheck.Session ContainerCheck.Check.Harness

variable {σ : Type}

def OwnsLog (fixtures : List (Option Fixture)) (index : Nat) (directory : String) : Prop :=
  ∃ fixture : Fixture, fixtures[index]? = some (some fixture) ∧
    fixture.ownDirectory = some directory

theorem OwnsLog.of_concat {fixtures : List (Option Fixture)} {added : Fixture} {index : Nat}
    {directory : String} (h : OwnsLog (fixtures ++ [some added]) index directory) :
    OwnsLog fixtures index directory ∨
      index = fixtures.length ∧ added.ownDirectory = some directory := by
  obtain ⟨fixture, hlive, hown⟩ := h
  by_cases hindex : index < fixtures.length
  · rw [List.getElem?_append_left hindex] at hlive
    exact .inl ⟨fixture, hlive, hown⟩
  · rw [List.getElem?_append_right (Nat.not_lt.mp hindex)] at hlive
    obtain ⟨hlength, hget⟩ := List.getElem?_eq_some_iff.mp hlive
    rw [List.length_singleton] at hlength
    simp only [List.getElem_singleton, Option.some.injEq] at hget
    subst hget
    exact .inr ⟨by omega, hown⟩

theorem OwnsLog.of_set {fixtures : List (Option Fixture)} {released index : Nat}
    {directory : String} (h : OwnsLog (fixtures.set released none) index directory) :
    index ≠ released ∧ OwnsLog fixtures index directory := by
  obtain ⟨fixture, hlive, hown⟩ := h
  by_cases heq : released = index
  · subst heq
    rw [List.getElem?_set_self'] at hlive
    simp at hlive
  · rw [List.getElem?_set_ne heq] at hlive
    exact ⟨Ne.symm heq, fixture, hlive, hown⟩

namespace Bench

/-- The log directories of all sandboxes that have not been released are there and apart. -/
structure LogsStand (bench : Bench σ) : Prop where
  calm : bench.world.Calm
  stands : ∀ index directory, OwnsLog bench.fixtures index directory →
    bench.world.tree.HasLog directory
  apart : ∀ index index' directory, OwnsLog bench.fixtures index directory →
    OwnsLog bench.fixtures index' directory → index = index'

theorem LogsStand.keep {bench after : Bench σ} {outcome : Option Error} (h : bench.LogsStand)
    (hkeeps : KeepsLogs bench.world outcome after.world)
    (hfixtures : after.fixtures = bench.fixtures) : after.LogsStand := by
  obtain ⟨hcalm, hspares⟩ := hkeeps h.calm
  refine ⟨hcalm, ?_, ?_⟩
  · rw [hfixtures]
    intro index directory howns
    exact (h.stands index directory howns).spares hspares
  · rw [hfixtures]
    exact h.apart

/-- A sandbox that is added has no log directory, or a new one. -/
theorem LogsStand.add {bench : Bench σ} (h : bench.LogsStand) {w : World σ} {fixture : Fixture}
    (hcalm : w.Calm) (hkept : ∀ other, bench.world.tree.HasLog other → w.tree.HasLog other)
    (hnew : ∀ directory, fixture.ownDirectory = some directory →
      w.tree.HasLog directory ∧ ¬ bench.world.tree.HasLog directory) :
    (Bench.mk (bench.fixtures ++ [some fixture]) w).LogsStand where
  calm := hcalm
  stands index directory howns := by
    rcases howns.of_concat with hold | ⟨_, hown⟩
    · exact hkept directory (h.stands index directory hold)
    · exact (hnew directory hown).1
  apart index index' directory howns howns' := by
    rcases howns.of_concat with hold | ⟨hlast, hown⟩
    · rcases howns'.of_concat with hold' | ⟨_, hown'⟩
      · exact h.apart index index' directory hold hold'
      -- An old log directory was there before, and the new one was not.
      · exact absurd (h.stands index directory hold) (hnew directory hown').2
    · rcases howns'.of_concat with hold' | ⟨hlast', _⟩
      · exact absurd (h.stands index' directory hold') (hnew directory hown).2
      · rw [hlast, hlast']

/-- The sandboxes that are left when one is released keep their log directories. -/
theorem LogsStand.drop {bench : Bench σ} (h : bench.LogsStand) {w : World σ} {released : Nat}
    (hcalm : w.Calm) (hkept : ∀ index directory, index ≠ released →
      OwnsLog bench.fixtures index directory → w.tree.HasLog directory) :
    (Bench.mk (bench.fixtures.set released none) w).LogsStand where
  calm := hcalm
  stands index directory howns := by
    obtain ⟨hne, hold⟩ := howns.of_set
    exact hkept index directory hne hold
  apart index index' directory howns howns' :=
    h.apart index index' directory howns.of_set.2 howns'.of_set.2

section

variable {h : Harness σ} (hclient : h.client.SparesLogs)
include hclient

theorem LogsStand.release {bench : Bench σ} (hbench : bench.LogsStand) (index : Nat) :
    (bench.release h index).2.LogsStand := by
  unfold Bench.release
  cases hfixture : bench.fixture? index with
  | none => exact hbench
  | some fixture =>
    have hlive := fixture?_eq_some.mp hfixture
    cases hown : fixture.ownDirectory with
    | none =>
      obtain ⟨hcalm, hspares⟩ := keepsLogs_release hclient hown bench.world hbench.calm
      apply hbench.drop hcalm
      intro other directory _ howns
      exact (hbench.stands other directory howns).spares hspares
    | some directory =>
      have howns : OwnsLog bench.fixtures index directory := ⟨fixture, hlive, hown⟩
      have hlog := hbench.stands index directory howns
      obtain ⟨_, hcalm, _, hothers⟩ := release_log hclient hown hbench.calm hlog
      apply hbench.drop hcalm
      intro other directory' hne howns'
      apply hothers directory' (hbench.stands other directory' howns')
      -- Two sandboxes never share a log directory.
      rintro rfl
      exact hne (hbench.apart other index directory' howns' howns)

theorem LogsStand.runSandbox {bench : Bench σ} (hbench : bench.LogsStand) :
    (bench.acquire h.runSandbox).2.LogsStand := by
  obtain ⟨config, _, hrun⟩ :=
    startFixture_run h "create-PodSandbox-for-container-" none bench.world
  have hdraw := keepsLogs_same bench.world (bench.world.draw 2) rfl rfl none
  have hkeeps := keepsLogs_composes.andThen hdraw
    (keepsLogs_ask hclient (.runSandbox config) (bench.world.draw 2) none)
  unfold acquire
  rw [runSandbox_eq, hrun]
  cases (h.client.ask (.runSandbox config) (bench.world.draw 2)).1 with
  | error message => exact hbench.keep hkeeps rfl
  | ok id =>
    obtain ⟨hcalm, hspares⟩ := hkeeps hbench.calm
    exact hbench.add hcalm (fun other hother => hother.spares hspares) nofun

theorem LogsStand.runSandboxWithLogs {bench : Bench σ} (hbench : bench.LogsStand) :
    (bench.acquire h.runSandboxWithLogs).2.LogsStand := by
  obtain ⟨hacquired, hcalm, hkept⟩ := runSandboxWithLogs_logs hclient hbench.calm
  unfold acquire
  rcases heq : h.runSandboxWithLogs bench.world with ⟨result, w⟩
  rw [heq] at hacquired hcalm hkept
  have hfailed : (Bench.mk bench.fixtures w).LogsStand :=
    ⟨hcalm, fun index directory howns => hkept directory (hbench.stands index directory howns),
      hbench.apart⟩
  cases hacquired with
  | unmade error hmade => exact hfailed
  | refused message hmade hcall hlogs hgone => exact hfailed
  | ran fixture hmade hcall hlogs hown hnew hlog =>
    apply hbench.add hcalm hkept
    intro directory hdirectory
    rw [hown] at hdirectory
    cases hdirectory
    exact ⟨hlog, hnew⟩

theorem LogsStand.perform {bench : Bench σ} (hbench : bench.LogsStand) (action : Action) :
    (bench.perform h action).2.LogsStand := by
  by_cases haction : action.inSandbox = true
  · have hfails : ∀ id command, Obeys KeepsLogs (h.verifyExecFails id command) :=
      fun id command w => keepsLogs_ask hclient (.execSync id command _) w _
    obtain ⟨hkeeps, hfixtures⟩ :=
      perform_obeys (conducts_keepsLogs hclient).toConducts hfails bench haction
    exact hbench.keep hkeeps hfixtures
  · cases action with
    | runSandbox =>
      rw [Bench.perform]
      exact hbench.runSandbox hclient
    | runSandboxWithLogs =>
      rw [Bench.perform]
      exact hbench.runSandboxWithLogs hclient
    | release index =>
      rw [Bench.perform]
      exact hbench.release hclient index
    | _ => exact absurd rfl haction

theorem LogsStand.performAll {bench : Bench σ} (hbench : bench.LogsStand) (actions : List Action) :
    (bench.performAll h actions).LogsStand := by
  induction actions generalizing bench with
  | nil => exact hbench
  | cons action actions ih => exact ih (hbench.perform hclient action)

end

end Bench

end ContainerCheck.Check
