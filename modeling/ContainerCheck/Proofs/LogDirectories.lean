import ContainerCheck.Proofs.Renaming
import ContainerCheck.Proofs.Respect
import ContainerCheck.Proofs.SandboxCalls

namespace ContainerCheck

open ContainerCheck.Cri ContainerCheck.Host ContainerCheck.Text

variable {σ : Type}

namespace Host.Tree

/-- Where log directories are, and the directories that they are in. -/
def Sheltered (tree : Tree) (place : Place) : Prop :=
  place <+: tree.home ∨ ∃ suffix, place = tree.home ++ ["podLogTest" ++ suffix]

structure Spares (before after : Tree) : Prop where
  home : after.home = before.home
  directories : ∀ place, before.Sheltered place → before.find? place = some .directory →
    after.find? place = some .directory

theorem Spares.refl (tree : Tree) : tree.Spares tree := ⟨rfl, fun _ _ h => h⟩

theorem Spares.trans {a b c : Tree} (hab : a.Spares b) (hbc : b.Spares c) : a.Spares c where
  home := hbc.home.trans hab.home
  directories place hs hdir := by
    apply hbc.directories place _ (hab.directories place hs hdir)
    unfold Sheltered
    rw [hab.home]
    exact hs

theorem Spares.grounded {before after : Tree} (h : before.Spares after) (hg : before.Grounded) :
    after.Grounded where
  directories place hplace := by
    rw [h.home] at hplace
    exact h.directories place (.inl hplace) (hg.directories place hplace)
  names := by
    rw [h.home]
    exact hg.names

/-- All directories that a log directory is in are there. -/
theorem Grounded.above {tree : Tree} (hg : tree.Grounded) {place : Place}
    (hs : tree.Sheltered place) (hdir : tree.find? place = some .directory) {above : Place}
    (habove : above <+: place) : tree.find? above = some .directory := by
  rcases hs with hhome | ⟨suffix, rfl⟩
  · exact hg.directories above (habove.trans hhome)
  · rcases List.prefix_concat_iff.mp habove with rfl | hhome
    · exact hdir
    · exact hg.directories above hhome

def HasLog (tree : Tree) (path : String) : Prop :=
  ∃ suffix, IsHomePath tree.home ("podLogTest" ++ suffix) path ∧
    tree.find? (tree.home ++ ["podLogTest" ++ suffix]) = some .directory

theorem HasLog.spares {before after : Tree} {path : String} (hlog : before.HasLog path)
    (h : before.Spares after) : after.HasLog path := by
  obtain ⟨suffix, hpath, hdir⟩ := hlog
  refine ⟨suffix, ?_, ?_⟩
  · rw [h.home]
    exact hpath
  · rw [h.home]
    exact h.directories _ (.inr ⟨suffix, rfl⟩) hdir

theorem HasLog.exists? {tree : Tree} {path : String} (hlog : tree.HasLog path)
    (hg : tree.Grounded) : tree.exists? path = .ok true := by
  obtain ⟨suffix, hpath, hdir⟩ := hlog
  rw [exists?_homePath hg hpath (.inr hdir), hdir]
  rfl

theorem not_prefix_home (home : Place) (name : String) {place : Place} (h : place <+: home) :
    ¬ home ++ [name] <+: place := by
  intro hbelow
  have hlength := (hbelow.trans h).length_le
  rw [List.length_append, List.length_singleton] at hlength
  omega

theorem grounded_prune {tree : Tree} (hg : tree.Grounded) (name : String) :
    (tree.prune (tree.home ++ [name])).Grounded where
  directories place hplace := by
    rw [find?_prune (not_prefix_home tree.home name hplace)]
    exact hg.directories place hplace
  names := hg.names

/-- A log directory that is removed is gone, and the others stay. -/
theorem removeAll_log {tree : Tree} {path : String} (hg : tree.Grounded) (hlog : tree.HasLog path) :
    ∃ tree', tree.removeAll path = .ok tree' ∧ tree'.Grounded ∧ tree'.exists? path = .ok false ∧
      ∀ other, tree.HasLog other → other ≠ path → tree'.HasLog other := by
  obtain ⟨suffix, hpath, hdir⟩ := hlog
  have hne : tree.home ++ ["podLogTest" ++ suffix] ≠ [] := by simp
  have hgone := find?_prune_self hne tree
  refine ⟨_, removeAll_homePath hg hpath hdir, grounded_prune hg _, ?_, ?_⟩
  · rw [exists?_homePath (grounded_prune hg _) hpath (.inl hgone)]
    exact congrArg (fun node => Except.ok node.isSome) hgone
  · rintro other ⟨suffix', hpath', hdir'⟩ hother
    refine ⟨suffix', hpath', ?_⟩
    refine (find?_prune ?_ tree).trans hdir'
    -- Below a log directory there is no other one, and it is not above its home.
    intro hbelow
    rcases List.prefix_concat_iff.mp hbelow with heq | hhome
    · apply hother
      rw [hpath.path_eq, hpath'.path_eq]
      exact congrArg pathOf heq.symm
    · exact not_prefix_home tree.home _ (List.prefix_refl tree.home) hhome

end Host.Tree

def Cri.Client.SparesLogs (client : Client σ) : Prop :=
  client.Respects fun before after => before.tree.Spares after.tree

structure World.Calm (w : World σ) : Prop where
  grounded : w.tree.Grounded
  pending : w.Respects fun before after => before.tree.Spares after.tree

namespace Check

open ContainerCheck.Session

def KeepsLogs : Conduct σ := fun w _ w' => w.Calm → w'.Calm ∧ w.tree.Spares w'.tree

theorem keepsLogs_composes : Conduct.Composes (KeepsLogs : Conduct σ) where
  rest w hcalm := ⟨hcalm, .refl _⟩
  andThen := by
    intro w w' w'' outcome h h' hcalm
    obtain ⟨hcalm', hspares⟩ := h hcalm
    obtain ⟨hcalm'', hspares'⟩ := h' hcalm'
    exact ⟨hcalm'', hspares.trans hspares'⟩
  giveUp _ h := h

theorem keepsLogs_of_respecting {w w' : World σ} {outcome : Option Error}
    (h : Respecting (fun before after => before.tree.Spares after.tree) w outcome w') :
    KeepsLogs w outcome w' := by
  intro hcalm
  obtain ⟨hpending, hspares⟩ := h hcalm.pending
  exact ⟨⟨hspares.grounded hcalm.grounded, hpending⟩, hspares⟩

theorem keepsLogs_same (w w' : World σ) (htree : w'.tree = w.tree)
    (hpending : w'.pending = w.pending) (outcome : Option Error) : KeepsLogs w outcome w' := by
  refine keepsLogs_of_respecting fun hrespects => ⟨hrespects.same hpending, ?_⟩
  change w.tree.Spares w'.tree
  rw [htree]
  exact .refl _

/-- What has been read is renamed without harm to a log directory. -/
theorem keepsLogs_rename {source target : String} {w : World σ} {content : List UInt8}
    (hread : w.tree.read source = .ok content) (outcome : Option Error) :
    KeepsLogs w outcome (Session.rename source target w).2 := by
  unfold Session.rename Session.changeTree
  split
  · next tree hrename =>
    intro hcalm
    obtain ⟨hhome, hkeeps⟩ := Tree.rename_keeps hread hrename
    have hspares : w.tree.Spares tree := ⟨hhome, fun place hs hdir =>
      hkeeps place fun above habove => hcalm.grounded.above hs hdir habove⟩
    exact ⟨⟨hspares.grounded hcalm.grounded, hcalm.pending⟩, hspares⟩
  · exact keepsLogs_same w (w.noteNow _) rfl rfl outcome

namespace Harness

variable {h : Harness σ} (hclient : h.client.SparesLogs)
include hclient

theorem keepsLogs_ask (request : Request) (w : World σ) (outcome : Option Error) :
    KeepsLogs w outcome (h.client.ask request w).2 :=
  keepsLogs_of_respecting (respecting_ask hclient request w outcome)

theorem conducts_keepsLogs : h.ConductsRenames KeepsLogs where
  toConducts := (conducts_respecting hclient (fun _ => .refl _) .trans).imp
    keepsLogs_composes keepsLogs_of_respecting
  renames _ _ _ _ hread := keepsLogs_rename hread _

end Harness

end Check

end ContainerCheck
