import ContainerCheck.Proofs.HomeEntries
import ContainerCheck.Proofs.MountedPaths
import ContainerCheck.Proofs.Respect
import ContainerCheck.Proofs.ScratchDirectories

namespace ContainerCheck

open ContainerCheck.Cri ContainerCheck.Host ContainerCheck.Text

variable {σ : Type}

/-- From one store to the other the entries of the home stay, if the home can be walked to. -/
def Store.SparesHome (names : String → Prop) (before after : Store σ) : Prop :=
  before.tree.Sound → before.tree.SameHome names after.tree

theorem Store.SparesHome.refl {names : String → Prop} (store : Store σ) :
    Store.SparesHome names store store := fun hs => .refl hs

theorem Store.SparesHome.trans {names : String → Prop} {a b c : Store σ}
    (hab : Store.SparesHome names a b) (hbc : Store.SparesHome names b c) :
    Store.SparesHome names a c := by
  intro hs
  have hfirst := hab hs
  exact hfirst.trans (hbc hfirst.sound)

structure World.HomeCalm (names : String → Prop) (w : World σ) : Prop where
  sound : w.tree.Sound
  pending : w.Respects (Store.SparesHome names)

namespace Check

open ContainerCheck.Session

def Guard.Guards : Guard → Node → Prop
  | directory _, node => node = .directory
  | link _, node => ∃ target, node = .link target

theorem Guard.Guards.not_file {guard : Guard} {node : Node} (h : guard.Guards node)
    (content : List UInt8) : node ≠ .file content := by
  rintro rfl
  cases guard with
  | directory path => cases h
  | link path =>
    obtain ⟨target, htarget⟩ := h
    cases htarget

theorem Guard.pending_drop (guard : Guard) (w : World σ) : (guard.drop w).pending = w.pending := by
  cases guard with
  | directory path => exact (World.Alike.discard w path).pending
  | link path => exact (World.Alike.discardFile w path).pending

/-- What a guard's path leads to is gone once the guard is dropped, unless it is something else. -/
theorem Guard.tree_drop {guard : Guard} {node : Node} {entry : Tree.Entry} {w : World σ}
    (hguards : guard.Guards node) (hslash : endsInSlash guard.path = false)
    (hentry : w.tree.entryOf .alreadyExists guard.path = .ok entry)
    (hshort : byteLength entry.name.toList ≤ longestName) (hg : w.tree.Grounded) :
    (guard.drop w).tree = w.tree.prune entry.place ∨
      (guard.drop w).tree = w.tree ∧ w.tree.find? entry.place ≠ some node := by
  cases guard with
  | directory path =>
    obtain rfl := hguards
    simp only [Guard.drop, World.discard]
    rcases Tree.removeAll_entry hslash hentry hshort with hgone | ⟨⟨fault, hfault⟩, hother⟩
    · left
      rw [show w.tree.removeAll path = _ from hgone]
      rfl
    -- A guard says nothing of its failure, and then nothing is removed.
    · right
      rw [show w.tree.removeAll path = _ from hfault]
      exact ⟨rfl, hother⟩
  | link path =>
    obtain ⟨target, rfl⟩ := hguards
    simp only [Guard.drop, World.discardFile]
    rcases Tree.removeFile_entry hslash hentry hshort hg with hgone | ⟨⟨fault, hfault⟩, hother⟩
    · left
      rw [show w.tree.removeFile path = _ from hgone]
      rfl
    · right
      rw [show w.tree.removeFile path = _ from hfault]
      exact ⟨rfl, hother target⟩

/-- A stem of names that are plain, or the ways to which are kept. -/
structure IsKeptStem (names : String → Prop) (stem : String) : Prop where
  nonempty : stem ≠ ""
  kept : ∀ suffix, IsName suffix → IsName (stem ++ suffix) ∨ names (stem ++ suffix)

/-- What has been put at a name of a stem, with its guard. -/
structure Held (names : String → Prop) (before : Tree) (stem : String) (guard : Guard)
    (first : Tree) : Prop where
  keptStem : IsKeptStem names stem
  path : ∃ suffix, IsName suffix ∧ guard.path = before.homePath (stem ++ suffix)
  arrival : ∃ entry node, guard.Guards node ∧ before.Arrival guard.path entry node first

section

variable {names : String → Prop} {before first : Tree} {stem : String} {guard : Guard}

theorem Held.sound (h : Held names before stem guard first) : first.Sound := by
  obtain ⟨entry, node, -, harrival⟩ := h.arrival
  exact harrival.sound

/-- Once its guard is dropped, the home is as before. -/
theorem Held.drop (h : Held names before stem guard first) (hs : before.Sound) {w : World σ}
    (hnow : first.SameHome names w.tree) : before.SameHome names (guard.drop w).tree := by
  obtain ⟨suffix, hsuffix, hpath⟩ := h.path
  obtain ⟨entry, node, hguards, harrival⟩ := h.arrival
  have hsame : before.homePath (stem ++ suffix) = first.homePath (stem ++ suffix) := by
    unfold Tree.homePath
    rw [harrival.same.home]
  have hslash : endsInSlash guard.path = false := by
    rw [hpath]
    exact Tree.endsInSlash_homePath before h.keptStem.nonempty hsuffix
  -- Whatever was done in between has kept the way to the path.
  have hleads : w.tree.entryOf .alreadyExists guard.path = .ok entry := by
    have hfirst := harrival.leads
    rw [hpath, hsame] at hfirst ⊢
    exact hnow.leads harrival.sound.toGrounded (h.keptStem.kept suffix hsuffix) hfirst
      harrival.free.short
  exact harrival.gone hs hnow hguards.not_file
    (Guard.tree_drop hguards hslash hleads harrival.free.short hnow.sound.toGrounded)

end

/-- A step with another one behind it fails if one of them does. -/
theorem bind_run_eq_error {α β : Type} {first : Session σ α} {next : α → Session σ β}
    {w w' : World σ} {error : Error} (h : (first >>= next) w = (.error error, w')) :
    first w = (.error error, w') ∨ ∃ value between,
      first w = (.ok value, between) ∧ next value between = (.error error, w') := by
  rw [bind_run] at h
  rcases heq : first w with ⟨result, between⟩
  rw [heq] at h
  cases result with
  | ok value => exact .inr ⟨value, between, rfl, h⟩
  | error error =>
    cases h
    exact .inl rfl

theorem orDiscard_run_eq_error {α : Type} {directory : String} {step : Session σ α}
    {w w' : World σ} {error : Error}
    (h : Session.orDiscard directory step w = (.error error, w')) :
    ∃ w'', step w = (.error error, w'') ∧ w' = w''.discard directory := by
  unfold Session.orDiscard at h
  split at h
  · cases h
  · next heq =>
    cases h
    exact ⟨_, heq, rfl⟩

theorem changeTree_run_eq_error {deed : Deed} {path : String} {change : Tree → Except IoFault Tree}
    {w w' : World σ} {error : Error} (h : changeTree deed path change w = (.error error, w')) :
    w'.tree = w.tree ∧ w'.pending = w.pending := by
  unfold changeTree at h
  split at h
  · cases h
  · cases h
    exact ⟨rfl, rfl⟩

/-- A host path cannot be made if there is no directory for it, or no flag file in that. The
directory is discarded then. -/
theorem create_run_eq_error {owner : String} {w w' : World σ} {error : Error}
    (h : HostPath.create owner w = (.error error, w')) :
    Session.makeTemporary ("test" ++ owner) w = (.error error, w') ∨
      ∃ (path : String) (between failed : World σ),
        Session.makeTemporary ("test" ++ owner) w = (.ok path, between) ∧
          failed.tree = between.tree ∧ failed.pending = between.pending ∧
            w' = failed.discard path := by
  rcases bind_run_eq_error h with hmade | ⟨path, between, hmade, hrest⟩
  · exact .inl hmade
  · obtain ⟨failed, hfile, rfl⟩ := orDiscard_run_eq_error hrest
    rcases bind_run_eq_error hfile with hfailed | ⟨_, _, _, hpure⟩
    · obtain ⟨htree, hpending⟩ := changeTree_run_eq_error hfailed
      exact .inr ⟨path, between, failed, hmade, htree, hpending, rfl⟩
    · cases hpure

theorem link_run_eq_error {target : String} {w w' : World σ} {error : Error}
    (h : HostPath.link target w = (.error error, w')) :
    w'.tree = w.tree ∧ w'.pending = w.pending := by
  rcases bind_run_eq_error h with hfailed | ⟨_, _, _, hpure⟩
  · exact changeTree_run_eq_error hfailed
  · cases hpure

theorem stem_ne_empty (owner : String) : "test" ++ owner ≠ "" := by
  intro hempty
  have hlength := congrArg (fun text : String => text.toList.length) hempty
  simp [String.toList_append] at hlength

theorem isName_freshSuffix (n : Nat) : IsName (World.freshSuffix n) := by
  have hname := World.isName_fresh (by simp : '/' ∉ "".toList) n
  rwa [String.empty_append] at hname

section

variable {names : String → Prop} {stem path : String} {w w' : World σ} {error : Error}
  (hs : w.tree.Sound)
include hs

section

variable (hstem : IsKeptStem names stem)
include hstem

theorem held_makeTemporary (h : Session.makeTemporary stem w = (.ok path, w')) :
    Held names w.tree stem (.directory path) w'.tree := by
  obtain ⟨hmake, -, n, hpath⟩ := makeTemporary_run_eq_ok h
  obtain ⟨entry, harrival, -⟩ := Tree.arrival_of_create hs hmake
  exact ⟨hstem, ⟨_, isName_freshSuffix n, hpath⟩, entry, .directory, rfl, harrival⟩

end

variable {owner : String} (howner : IsKeptStem names ("test" ++ owner))
include howner

/-- A host path that is made is held with the flag file in it. -/
theorem held_create (h : HostPath.create owner w = (.ok path, w')) :
    Held names w.tree ("test" ++ owner) (.directory path) w'.tree ∧ w'.pending = w.pending := by
  obtain ⟨between, hmade, hwrite, hpending⟩ := create_run_eq_ok h
  obtain ⟨hmake, hpending', n, hpath⟩ := makeTemporary_run_eq_ok hmade
  obtain ⟨entry, harrival, hvacant⟩ := Tree.arrival_of_create hs hmake
  have hname := isName_freshSuffix n
  have hslash : endsInSlash path = false := by
    rw [hpath]
    exact Tree.endsInSlash_homePath w.tree howner.nonempty hname
  have hwritten := harrival.write hslash isShortName_flagFile (hvacant flagFile) hwrite
  exact ⟨⟨howner, ⟨_, hname, hpath⟩, entry, .directory, rfl, hwritten⟩, hpending.trans hpending'⟩

/-- A host path that cannot be made leaves the home as it was, also if the flag file is at fault. -/
theorem sameHome_create (h : HostPath.create owner w = (.error error, w')) :
    w.tree.SameHome names w'.tree ∧ w'.pending = w.pending := by
  rcases create_run_eq_error h with hmade | ⟨path, w₁, w₂, hmade, htree, hpending', rfl⟩
  · obtain ⟨htree, hpending⟩ := makeTemporary_run_eq_error hmade
    rw [htree]
    exact ⟨.refl hs, hpending⟩
  · have hheld := held_makeTemporary hs howner hmade
    obtain ⟨-, hpending, -⟩ := makeTemporary_run_eq_ok hmade
    refine ⟨hheld.drop hs ?_, ?_⟩
    · rw [htree]
      exact .refl hheld.sound
    · exact (Guard.pending_drop (.directory path) w₂).trans (hpending'.trans hpending)

end

section

variable {names : String → Prop} {stem suffix target path : String} {w w' : World σ} {error : Error}
  (hs : w.tree.Sound)
include hs

/-- A link that is made beside a path has a name of the same stem. -/
theorem held_link (hstem : IsKeptStem names stem) (hsuffix : IsName suffix)
    (htarget : target = w.tree.homePath (stem ++ suffix))
    (h : HostPath.link target w = (.ok path, w')) :
    Held names w.tree stem (.link path) w'.tree ∧ w'.pending = w.pending := by
  obtain ⟨rfl, hmake, hpending⟩ := link_run_eq_ok h
  obtain ⟨entry, harrival, -⟩ := Tree.arrival_of_create hs (Tree.makeLink_eq_ok hmake)
  have hlink : linkPath target = w.tree.homePath (stem ++ (suffix ++ "-symlink")) := by
    rw [htarget, Tree.homePath_append w.tree hstem.nonempty,
      Tree.homePath_append w.tree hstem.nonempty, ← String.append_assoc]
    rfl
  exact ⟨⟨hstem, ⟨_, isName_link hsuffix, hlink⟩, entry, .link target, ⟨target, rfl⟩, harrival⟩,
    hpending⟩

theorem sameHome_link (h : HostPath.link target w = (.error error, w')) :
    w.tree.SameHome names w'.tree ∧ w'.pending = w.pending := by
  obtain ⟨htree, hpending⟩ := link_run_eq_error h
  rw [htree]
  exact ⟨.refl hs, hpending⟩

end

/-- A conduct that leaves the home as it was, with the ways to some names. -/
def RestoresHome (names kept : String → Prop) : Conduct σ := fun w _ w' =>
  w.HomeCalm names → w'.HomeCalm names ∧ w.tree.SameHome kept w'.tree

section

variable {names kept : String → Prop}

theorem restoresHome_composes : Conduct.Composes (RestoresHome names kept : Conduct σ) where
  rest w hcalm := ⟨hcalm, .refl hcalm.sound⟩
  andThen hfirst hnext hcalm := by
    obtain ⟨hcalm', hsame⟩ := hfirst hcalm
    obtain ⟨hcalm'', hsame'⟩ := hnext hcalm'
    exact ⟨hcalm'', hsame.trans hsame'⟩
  giveUp _ h := h

/-- A step that spares the home restores it. -/
theorem restoresHome_of_respecting (hkept : ∀ name, kept name → names name) {w w' : World σ}
    {outcome : Option Error} (h : Respecting (Store.SparesHome names) w outcome w') :
    RestoresHome names kept w outcome w' := by
  intro hcalm
  obtain ⟨hpending, hspares⟩ := h hcalm.pending
  have hsame := hspares hcalm.sound
  exact ⟨⟨hsame.sound, hpending⟩, hsame.mono hkept⟩

namespace Harness

variable {h : Harness σ} (hclient : h.client.Respects (Store.SparesHome names))
  (hkept : ∀ name, kept name → names name)
include hclient hkept

theorem restoresHome_ask (request : Request) (w : World σ) (outcome : Option Error) :
    RestoresHome names kept w outcome (h.client.ask request w).2 :=
  restoresHome_of_respecting hkept (respecting_ask hclient request w outcome)

theorem conducts_restoresHome : h.Conducts (RestoresHome names kept) :=
  (conducts_respecting hclient Store.SparesHome.refl Store.SparesHome.trans).imp
    restoresHome_composes (restoresHome_of_respecting hkept)

end Harness

/-- What is done beside a guarded path, which is gone at the end. -/
theorem restoresHome_guarded {α : Type} {stem : String} {guard : String → Guard}
    {acquire : Session σ String} {body : String → Session σ α} {w : World σ}
    (hheld : ∀ path w', w.HomeCalm names → acquire w = (.ok path, w') →
      Held kept w.tree stem (guard path) w'.tree ∧ w'.pending = w.pending)
    (hfailed : ∀ error w', w.HomeCalm names → acquire w = (.error error, w') →
      w.tree.SameHome kept w'.tree ∧ w'.pending = w.pending)
    (hbody : ∀ path w', Held kept w.tree stem (guard path) w'.tree →
      RestoresHome names kept w' (failure? (body path w').1) (body path w').2) :
    RestoresHome names kept w
      (failure? ((acquire >>= fun path => (body path).ensuring (guard path).drop) w).1)
      ((acquire >>= fun path => (body path).ensuring (guard path).drop) w).2 := by
  intro hcalm
  rw [bind_run]
  rcases heq : acquire w with ⟨result, w'⟩
  cases result with
  | error error =>
    obtain ⟨hsame, hpending⟩ := hfailed error w' hcalm heq
    exact ⟨⟨hsame.sound, hcalm.pending.same hpending⟩, hsame⟩
  | ok path =>
    obtain ⟨hpath, hpending⟩ := hheld path w' hcalm heq
    obtain ⟨hcalm', hsame⟩ := hbody path w' hpath ⟨hpath.sound, hcalm.pending.same hpending⟩
    have hgone := hpath.drop hcalm.sound hsame
    exact ⟨⟨hgone.sound, hcalm'.pending.same (Guard.pending_drop _ _)⟩, hgone⟩

end

section

variable {α : Type} {names kept : String → Prop} {owner : String} {w : World σ}
  (howner : IsKeptStem kept ("test" ++ owner))
include howner

theorem restoresHome_withDirectory {body : String → Session σ α}
    (hbody : ∀ path w', Held kept w.tree ("test" ++ owner) (.directory path) w'.tree →
      RestoresHome names kept w' (failure? (body path w').1) (body path w').2) :
    RestoresHome names kept w (failure? (HostPath.withDirectory owner body w).1)
      (HostPath.withDirectory owner body w).2 :=
  restoresHome_guarded (fun _ _ hcalm => held_create hcalm.sound howner)
    (fun _ _ hcalm => sameHome_create hcalm.sound howner) hbody

/-- A link beside a host path goes before it. -/
theorem restoresHome_withLink {body : String → Session σ α} {before : Tree} {target : String}
    (htarget : Held kept before ("test" ++ owner) (.directory target) w.tree)
    (hbody : ∀ link w', RestoresHome names kept w' (failure? (body link w').1) (body link w').2) :
    RestoresHome names kept w (failure? (HostPath.withLink target body w).1)
      (HostPath.withLink target body w).2 := by
  obtain ⟨suffix, hsuffix, hpath⟩ := htarget.path
  obtain ⟨entry, node, -, harrival⟩ := htarget.arrival
  have hhere : target = w.tree.homePath ("test" ++ owner ++ suffix) := by
    unfold Tree.homePath
    rw [harrival.same.home]
    exact hpath
  exact restoresHome_guarded (fun _ _ hcalm => held_link hcalm.sound howner hsuffix hhere)
    (fun _ _ hcalm => sameHome_link hcalm.sound) fun link w' _ => hbody link w'

end

end Check

end ContainerCheck
