import ContainerCheck.Proofs.Deeds
import ContainerCheck.Proofs.GrowingFiles
import ContainerCheck.Proofs.LogDirectories

namespace ContainerCheck

open ContainerCheck.Cri ContainerCheck.Host ContainerCheck.Poll

variable {σ : Type}

/-- Whether a path is that of a log file, or of one that has been put aside. -/
def IsLogFile (path : String) : Prop :=
  ∃ stem, path = stem ++ ".log" ∨ path = stem ++ ".log" ++ Check.Harness.rotatedSuffix

def Host.Tree.LogsGrow (before after : Tree) : Prop :=
  ∀ path content, IsLogFile path → before.read path = .ok content →
    ∃ added, after.read path = .ok (content ++ added)

namespace Host.Tree.LogsGrow

theorem refl (tree : Tree) : tree.LogsGrow tree :=
  fun _ content _ hread => ⟨[], by rw [List.append_nil, hread]⟩

theorem trans {a b c : Tree} (hab : a.LogsGrow b) (hbc : b.LogsGrow c) : a.LogsGrow c := by
  intro path content hlog hread
  obtain ⟨added, hadded⟩ := hab path content hlog hread
  obtain ⟨more, hmore⟩ := hbc path _ hlog hadded
  exact ⟨added ++ more, by rw [hmore, List.append_assoc]⟩

end Host.Tree.LogsGrow

theorem Host.Tree.Grows.logsGrow {before after : Tree} (h : before.Grows after) :
    before.LogsGrow after := by
  intro path content _ hread
  obtain ⟨added, hadded⟩ := h.read hread
  exact ⟨added, hadded⟩

def Cri.Client.AppendsToLogs (client : Client σ) : Prop :=
  client.Respects fun before after => before.tree.LogsGrow after.tree

namespace World

def Appending (w : World σ) : Prop := w.Respects fun before after => before.tree.LogsGrow after.tree

theorem pending_makeTemporary (parent stem : String) (attempts : Nat) (w : World σ) :
    (w.makeTemporary parent stem attempts).2.pending = w.pending := by
  induction attempts generalizing w with
  | zero => rfl
  | succ attempts ih =>
    unfold makeTemporary
    dsimp only
    split
    · rfl
    · split
      · rw [ih]
      · rfl

theorem pending_discard (w : World σ) (path : String) : (w.discard path).pending = w.pending := by
  unfold discard
  split
  · rfl
  · rfl

/-- From one world to the other, all that happened is that log files were appended to; deeds saw
them grow. -/
structure Undisturbed (w w' : World σ) : Prop where
  appending : w'.Appending
  clock : w.clock ≤ w'.clock
  grows : w.tree.LogsGrow w'.tree
  noted : ∃ trace, w.Noted trace w' ∧ ∀ note ∈ trace, w.tree.LogsGrow note.before.tree

end World

namespace Check

open ContainerCheck.Session

theorem pending_makeTemporary (stem : String) (w : World σ) :
    (Session.makeTemporary stem w).2.pending = w.pending := by
  unfold Session.makeTemporary
  simp only [World.pending_makeTemporary]
  rfl

def KeepsAppending : Conduct σ := fun w _ w' => w.Appending → w'.Appending

theorem keepsAppending_composes : Conduct.Composes (KeepsAppending : Conduct σ) where
  rest _ h := h
  andThen h h' happending := h' (h happending)
  giveUp _ h := h

theorem keepsAppending_of_respecting {w w' : World σ} {outcome : Option Error}
    (h : Respecting (fun before after => before.tree.LogsGrow after.tree) w outcome w') :
    KeepsAppending w outcome w' :=
  fun happending => (h happending).1

def LeavesAlone : Conduct σ := fun w _ w' => w.Appending → w.Undisturbed w'

theorem leavesAlone_composes : Conduct.Composes (LeavesAlone : Conduct σ) where
  rest w h := ⟨h, Nat.le_refl _, .refl _, [], .nil rfl, by simp⟩
  andThen := by
    intro w w' w'' outcome h h' happending
    obtain ⟨happending', hclock, hgrows, trace, hnoted, htrace⟩ := h happending
    obtain ⟨happending'', hclock', hgrows', more, hnoted', hmore⟩ := h' happending'
    refine ⟨happending'', Nat.le_trans hclock hclock', hgrows.trans hgrows', trace ++ more,
      hnoted.append hnoted', fun note hnote => ?_⟩
    rcases List.mem_append.mp hnote with hmem | hmem
    · exact htrace note hmem
    · exact hgrows.trans (hmore note hmem)
  giveUp _ h := h

theorem leavesAlone_sleep (w : World σ) (span : Nat) : LeavesAlone w none (w.sleep span) := by
  intro happending
  have hrespects : Respecting (fun before after => before.tree.LogsGrow after.tree) w none
      (w.sleep span) := respecting_sleep (fun _ => .refl _) .trans w span
  obtain ⟨happending', hgrows⟩ := hrespects happending
  refine ⟨happending', ?_, hgrows, [], .nil (World.notes_sleep w span), by simp⟩
  rw [World.clock_sleep]
  exact Nat.le_add_right _ _

theorem leavesAlone_inspect {α : Type} (deed : Deed) (read : Tree → Except Error α) :
    Obeys LeavesAlone (inspect deed read : Session σ α) := by
  intro w happending
  refine ⟨happending, Nat.le_refl _, .refl _, _, .noteNow w deed, ?_⟩
  exact List.forall_mem_singleton.mpr (.refl _)

theorem keepsAppending_rename (source target : String) :
    Obeys KeepsAppending (Session.rename source target : Session σ Unit) := by
  intro w happending
  unfold Session.rename Session.changeTree
  split
  · exact happending
  · exact happending

theorem appending_of_ok {α : Type} {step : Session σ α} (hstep : Obeys KeepsAppending step)
    {w w' : World σ} {value : α} (hok : step w = (.ok value, w')) (happending : w.Appending) :
    w'.Appending := by
  have hkept := hstep w happending
  rw [hok] at hkept
  exact hkept

namespace Harness

variable {h : Harness σ}

theorem leavesAlone_verifyUnchanged (path : String) (n : Nat) :
    Obeys LeavesAlone (h.verifyUnchanged path n) := by
  apply Obeys.bind leavesAlone_composes
  · apply Obeys.hold leavesAlone_composes leavesAlone_sleep
    apply Obeys.bind leavesAlone_composes (leavesAlone_inspect _ _)
    intro records
    exact Obeys.pure leavesAlone_composes records.length
  · intro _
    exact Obeys.pure leavesAlone_composes ()

section

variable (hclient : h.client.AppendsToLogs)
include hclient

theorem conducts_keepsAppending : h.Conducts KeepsAppending :=
  (conducts_respecting hclient (fun _ => .refl _) .trans).imp
    keepsAppending_composes keepsAppending_of_respecting

theorem keepsAppending_call (request : Request) : Obeys KeepsAppending (h.call request) :=
  fun w => keepsAppending_of_respecting (respecting_ask hclient request w _)

theorem keepsAppending_startFixture (stem : String) (directory : Option String) :
    Obeys KeepsAppending (h.startFixture stem directory) :=
  obeys_startFixture h (conducts_keepsAppending hclient)
    (fun _ => keepsAppending_call hclient _) stem directory

theorem keepsAppending_runSandboxWithLogs :
    Obeys KeepsAppending h.runSandboxWithLogs := by
  rw [runSandboxWithLogs_eq]
  apply Obeys.bind keepsAppending_composes
  · intro w happending
    exact happending.same (pending_makeTemporary "podLogTest" w)
  · intro directory w happending
    have hstarted := keepsAppending_startFixture hclient "PodSandbox-with-log-directory-"
      (some directory) w happending
    unfold Session.orDiscard
    split
    · next fixture w' heq =>
      rw [heq] at hstarted
      exact hstarted
    · next error w' heq =>
      rw [heq] at hstarted
      exact hstarted.same (World.pending_discard w' directory)

end

end Harness

end Check

end ContainerCheck
