import ContainerCheck.Proofs.Conduct

namespace ContainerCheck

open ContainerCheck.Host

variable {σ α β : Type}

/-- Where no change is to come, nothing happens while somebody sleeps. -/
theorem World.sleep_calm {w : World σ} (h : w.pending = []) (span : Nat) :
    (w.sleep span).store = w.store ∧ (w.sleep span).pending = [] := by
  unfold World.sleep
  split
  · exact ⟨rfl, h⟩
  · simp [World.settle, World.elapse, h]

namespace Session

/-- From surroundings of one kind a step succeeds and leads to surroundings of another kind. -/
def Leads (before : Store σ → Prop) (step : Session σ α) (after : α → Store σ → Prop) : Prop :=
  ∀ w, w.pending = [] → before w.store →
    ∃ value w', step w = (.ok value, w') ∧ w'.pending = [] ∧ after value w'.store

variable {before : Store σ → Prop} {after after' : α → Store σ → Prop}
  {step : Session σ α}

namespace Leads

theorem mono (h : Leads before step after) (hafter : ∀ value store, after value store →
    after' value store) : Leads before step after' := by
  intro w hcalm hw
  obtain ⟨value, w', hrun, hcalm', hw'⟩ := h w hcalm hw
  exact ⟨value, w', hrun, hcalm', hafter value _ hw'⟩

theorem pure {value : α} (h : ∀ store, before store → after value store) :
    Leads before (Pure.pure value) after :=
  fun w hcalm hw => ⟨value, w, rfl, hcalm, h _ hw⟩

theorem bind {next : α → Session σ β} {last : β → Store σ → Prop} (h : Leads before step after)
    (hnext : ∀ value, Leads (after value) (next value) last) :
    Leads before (step >>= next) last := by
  intro w hcalm hw
  obtain ⟨value, w', hrun, hcalm', hw'⟩ := h w hcalm hw
  obtain ⟨value', w'', hrun', hrest⟩ := hnext value w' hcalm' hw'
  refine ⟨value', w'', ?_, hrest⟩
  rw [bind_run, hrun]
  exact hrun'

/-- What the surroundings are known to be like may be given names first. -/
theorem of_exists {ι : Type} {kinds : ι → Store σ → Prop}
    (h : ∀ i, Leads (kinds i) step after) : Leads (fun store => ∃ i, kinds i store) step after :=
  fun w hcalm ⟨i, hw⟩ => h i w hcalm hw

theorem of_and {known : Prop} (h : known → Leads before step after) :
    Leads (fun store => known ∧ before store) step after :=
  fun w hcalm ⟨hknown, hw⟩ => h hknown w hcalm hw

theorem ensuring {cleanup : World σ → World σ} (h : Leads before step after)
    (hcleanup : ∀ value w, w.pending = [] → after value w.store →
      (cleanup w).pending = [] ∧ after' value (cleanup w).store) :
    Leads before (step.ensuring cleanup) after' := by
  intro w hcalm hw
  obtain ⟨value, w', hrun, hcalm', hw'⟩ := h w hcalm hw
  refine ⟨value, cleanup w', ?_, hcleanup value w' hcalm' hw'⟩
  rw [ensuring_run, hrun]

theorem orDiscard (h : Leads before step after) (directory : String) :
    Leads before (Session.orDiscard directory step) after := by
  intro w hcalm hw
  obtain ⟨value, w', hrun, hrest⟩ := h w hcalm hw
  refine ⟨value, w', ?_, hrest⟩
  unfold Session.orDiscard
  rw [hrun]

end Leads

theorem leads_uniqueName (stem : String) : Leads before (uniqueName stem) fun name store =>
    (∃ n, name = stem ++ World.freshUuid n) ∧ before store :=
  fun w hcalm hw => ⟨_, _, rfl, hcalm, ⟨w.drawn, rfl⟩, hw⟩

theorem leads_lift {value : α} (h : ∀ store, before store → after value store) :
    Leads before (lift (.ok value)) after :=
  fun w hcalm hw => ⟨value, w, rfl, hcalm, h _ hw⟩

/-- A step behind a result that is known. -/
theorem leads_lift_bind {result : Except Error α} {value : α} (h : result = .ok value)
    {next : α → Session σ β} {last : β → Store σ → Prop} (hnext : Leads before (next value) last) :
    Leads before (lift result >>= next) last := by
  subst h
  exact hnext

theorem leads_require {condition : Bool} (h : condition = true) (message : String) :
    Leads before (require condition message) fun _ => before := by
  rw [require, if_pos h]
  exact Leads.pure fun _ hw => hw

theorem leads_inspect {deed : Deed} {read : Tree → Except Error α}
    (h : ∀ store, before store → ∃ value, read store.tree = .ok value ∧ after value store) :
    Leads before (inspect deed read) after := by
  intro w hcalm hw
  obtain ⟨value, hread, hafter⟩ := h w.store hw
  refine ⟨value, w.noteNow deed, ?_, hcalm, hafter⟩
  unfold inspect World.tree
  rw [hread]

theorem leads_changeTree {deed : Deed} {path : String} {change : Tree → Except IoFault Tree}
    {after : Unit → Store σ → Prop}
    (h : ∀ store, before store →
      ∃ tree, change store.tree = .ok tree ∧ after () { store with tree := tree }) :
    Leads before (changeTree deed path change) after := by
  intro w hcalm hw
  obtain ⟨tree, hchange, hafter⟩ := h w.store hw
  refine ⟨(), (w.noteNow deed).setTree tree, ?_, hcalm, hafter⟩
  unfold changeTree World.tree
  rw [hchange]

section

variable {probe : Session σ α} {accept : α → Bool}

theorem pollFrom_accepted {interval timeout start rounds : Nat} {w w' : World σ} {value : α}
    (hrounds : 0 < rounds) (hrun : probe w = (.ok value, w')) (haccept : accept value = true) :
    Poll.pollFrom probe accept interval timeout start rounds w = (.ok value, w') := by
  cases rounds with
  | zero => cases hrounds
  | succ rounds => simp only [Poll.pollFrom, hrun, Poll.afterProbe, haccept, if_true]

/-- A wait whose first probe is accepted is over with it. -/
theorem leads_waitFor
    (h : Leads before probe fun value store => accept value = true ∧ after value store)
    (condition : String) (describe : α → String) (interval timeout : Nat) :
    Leads before (waitFor condition describe probe accept interval timeout) after := by
  intro w hcalm hw
  obtain ⟨value, w', hrun, hcalm', haccept, hafter⟩ := h w hcalm hw
  have hpolled : Poll.pollUntil probe accept interval timeout w = (.ok value, w') :=
    pollFrom_accepted (Nat.add_pos_right timeout Poll.patience_pos) hrun haccept
  obtain ⟨hfst, hsnd⟩ := waitFor_run condition describe probe accept interval timeout w
  rw [hpolled] at hfst hsnd
  exact ⟨value, w', Prod.ext hfst hsnd, hcalm', hafter⟩

/-- Probes that are accepted again and again outlast the window: each pause takes some of it. -/
theorem holdFrom_calm (hclock : ∀ w, w.clock ≤ (probe w).2.clock)
    (h : Leads before probe fun value store => accept value = true ∧ before store) {interval : Nat}
    (hi : interval ≠ 0) {window start : Nat} (rounds : Nat) {w : World σ} (hcalm : w.pending = [])
    (hw : before w.store) (hlate : w.clock ≤ start + window)
    (hrounds : start + window < w.clock + rounds) :
    ∃ value w', Poll.holdFrom probe accept interval window start rounds w = (.ok value, w') ∧
      w'.pending = [] ∧ before w'.store := by
  induction rounds generalizing w with
  | zero => omega
  | succ rounds ih =>
    obtain ⟨value, w', hrun, hcalm', haccept, hw'⟩ := h w hcalm hw
    have hlater : w.clock ≤ w'.clock := by
      have hprobe := hclock w
      rwa [hrun] at hprobe
    simp only [Poll.holdFrom, hrun, Poll.afterCheck, haccept, not_true_eq_false, if_false,
      Poll.Clock.now]
    by_cases hover : window ≤ w'.clock - start
    · rw [if_pos hover]
      exact ⟨value, w', rfl, hcalm', hw'⟩
    · rw [if_neg hover]
      obtain ⟨hstore, hpending⟩ :=
        World.sleep_calm hcalm' (min interval (window - (w'.clock - start)))
      have hslept := World.clock_sleep w' (min interval (window - (w'.clock - start)))
      simp only [Poll.Clock.sleep]
      exact ih hpending (hstore ▸ hw') (by omega) (by omega)

/-- What is accepted and stays as it is holds. -/
theorem leads_hold (hclock : ∀ w, w.clock ≤ (probe w).2.clock)
    (h : Leads before probe fun value store => accept value = true ∧ before store) {interval : Nat}
    (hi : interval ≠ 0) (condition : String) (describe : α → String) (window : Nat) :
    Leads before (hold condition describe probe accept interval window) fun _ => before := by
  intro w hcalm hw
  have hpatience := Poll.patience_pos
  obtain ⟨value, w', hrun, hrest⟩ := holdFrom_calm hclock h hi (window + Poll.patience) hcalm hw
    (Nat.le_add_right w.clock window) (by omega)
  have hheld : Poll.holdSteady probe accept interval window w = (.ok value, w') := hrun
  obtain ⟨hfst, hsnd⟩ := hold_run condition describe probe accept interval window w
  rw [hheld] at hfst hsnd
  exact ⟨value, w', Prod.ext hfst hsnd, hrest⟩

end

end Session

end ContainerCheck
