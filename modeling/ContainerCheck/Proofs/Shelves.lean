import ContainerCheck.Proofs.OwnedEntries

namespace ContainerCheck

open ContainerCheck.Host ContainerCheck.Text

variable {σ : Type}

namespace Check

open ContainerCheck.Session

section

variable {owner target path : String} {w w' : World σ} {error : Error} (hs : w.tree.Sound)
include hs

/-- A fresh directory is held by its guard as soon as it is made. -/
theorem fits_makeTemporary (h : Session.makeTemporary ("test" ++ owner) w = (.ok path, w')) :
    ∃ entry, Holding.Fits w.tree ⟨.directory path, entry⟩ ∧
      w.tree.Arrival path entry .directory w'.tree ∧
        w'.tree = w.tree.put entry.place .directory := by
  obtain ⟨hmake, -, n, hpath⟩ := makeTemporary_run_eq_ok h
  obtain ⟨entry, hentry, hfree, hput⟩ := Tree.create_eq_ok hmake
  have harrival := hfree.arrival hs hentry .directory
  rw [← hput] at harrival
  refine ⟨entry, ⟨hentry, hfree, ?_, ?_⟩, harrival, hput⟩
  · rw [show (Guard.directory path).path = _ from hpath]
    exact Tree.endsInSlash_homePath w.tree (stem_ne_empty owner) (isName_freshSuffix n)
  · rintro _ ⟨⟩
    rw [hpath]
    exact isAbsolute_joinPath (isAbsolute_pathOf w.tree.home) _

theorem made_create (h : HostPath.create owner w = (.ok path, w')) :
    ∃ entry, Holding.Made w.tree ⟨.directory path, entry⟩ w'.tree := by
  obtain ⟨between, hmade, hwrite, -⟩ := create_run_eq_ok h
  obtain ⟨entry, hfits, harrival, hput⟩ := fits_makeTemporary hs hmade
  have hslash : endsInSlash path = false := hfits.slashless
  have hbelow (rest : Place) : between.tree.find? (entry.place ++ rest) =
      if rest = [] then some .directory else none := by
    rw [hput]
    exact hfits.free.find?_put hs .directory rest
  have hvacant : between.tree.find? (entry.place ++ [flagFile]) = none :=
    (hbelow [flagFile]).trans (if_neg (List.cons_ne_nil _ _))
  have hflag := Tree.put_of_write harrival.sound harrival.leads hslash hfits.free.short
    harrival.arrived isShortName_flagFile hvacant hwrite
  have hwritten := harrival.write hslash isShortName_flagFile hvacant hwrite
  refine ⟨entry, hfits, hwritten.same, fun rest => ?_, hwritten.sound⟩
  change w'.tree.find? (entry.place ++ rest) = _
  rw [hflag, Tree.find?_put between.tree (List.concat_ne_nil _ _), hbelow]
  by_cases hrest : rest = [flagFile]
  · simp [hrest]
  · simp [hrest]

/-- A host path that cannot be made leaves nothing behind. -/
theorem alike_create (h : HostPath.create owner w = (.error error, w')) :
    w.tree.Alike w'.tree := by
  rcases create_run_eq_error h with hfailed | ⟨path, between, failed, hmade, htree, -, rfl⟩
  · rw [(makeTemporary_run_eq_error hfailed).1]
    exact .refl w.tree
  · obtain ⟨entry, hfits, harrival, -⟩ := fits_makeTemporary hs hmade
    rw [← htree] at harrival
    have hguards : (Guard.directory path).Guards .directory := rfl
    have hgone : (failed.discard path).tree = failed.tree.prune entry.place := by
      rcases Guard.tree_drop hguards hfits.slashless harrival.leads hfits.free.short
        harrival.sound.toGrounded with hgone | ⟨-, hother⟩
      · exact hgone
      · exact absurd harrival.arrived hother
    rw [hgone]
    exact Tree.alike_prune entry.place_ne_nil
      (fun place => hs.rooted.vacant_below hfits.free.vacant) harrival.same

theorem made_link (h : HostPath.link target w = (.ok path, w')) :
    ∃ entry, Holding.Made w.tree ⟨.link path, entry⟩ w'.tree := by
  obtain ⟨rfl, hmake, -⟩ := link_run_eq_ok h
  obtain ⟨entry, hentry, hfree, hput⟩ := Tree.create_eq_ok (Tree.makeLink_eq_ok hmake)
  have harrival := hfree.arrival hs hentry (.link target)
  rw [← hput] at harrival
  have hsome : target ≠ "" := by
    rintro rfl
    cases hmake
  have hslash : endsInSlash (linkPath target) = false :=
    endsInSlash_append (.of_long (by decide) (by decide))
  refine ⟨entry, ⟨hentry, hfree, hslash, nofun⟩, harrival.same,
    ⟨target, hsome, rfl, fun rest => ?_⟩, harrival.sound⟩
  rw [hput]
  exact hfree.find?_put hs (.link target) rest

omit hs in
/-- A link is not made where something is already. -/
theorem makeLink_taken {tree : Tree} {entry : Tree.Entry} {found : Node} (hsome : target ≠ "")
    (hentry : tree.entryOf .alreadyExists (linkPath target) = .ok entry)
    (hdirectory : tree.find? entry.directory = some .directory)
    (hshort : byteLength entry.name.toList ≤ longestName)
    (hfound : tree.find? entry.place = some found) :
    tree.makeLink (linkPath target) target = .error .alreadyExists := by
  -- What can be walked to beside the target says that its own text is in order.
  obtain ⟨init, -, hwalk, -, -⟩ := Tree.entryOf_eq_ok hentry
  obtain ⟨hnul, hlength⟩ := Tree.fits_of_walkFrom_ok hwalk
  simp only [linkPath, String.toList_append, List.mem_append, not_or] at hnul
  simp only [linkPath, String.toList_append, byteLength_append] at hlength
  unfold Tree.makeLink
  rw [if_neg hnul.1, if_neg hsome, if_neg (by omega)]
  exact Tree.create_taken hentry hdirectory hshort hfound

def IsPlainPath (home : Place) (path : String) : Prop :=
  ∃ name, IsName name ∧ path = pathOf (home ++ [name])

theorem plain_create (howner : '/' ∉ owner.toList)
    (h : HostPath.create owner w = (.ok path, w')) : IsPlainPath w.tree.home path := by
  obtain ⟨between, hmade, -, -⟩ := create_run_eq_ok h
  obtain ⟨-, -, n, rfl⟩ := makeTemporary_run_eq_ok hmade
  have hname := isName_hostPath howner n
  exact ⟨_, hname, joinPath_pathOf hs.isName hname⟩

omit hs in
theorem plain_link {home : Place} (htarget : IsPlainPath home target)
    (h : HostPath.link target w = (.ok path, w')) : IsPlainPath home path := by
  obtain ⟨rfl, -, -⟩ := link_run_eq_ok h
  obtain ⟨name, hname, rfl⟩ := htarget
  exact ⟨_, isName_link hname, linkPath_pathOf home name⟩

end

namespace Shelf

def Step.Plain (home : Place) : Step → Prop
  | .create owner => '/' ∉ owner.toList
  | .link target => IsPlainPath home target
  | .drop _ => True

def run (shelf : Shelf σ) (steps : List Step) : Shelf σ :=
  steps.foldl (fun shelf step => (shelf.step step).2) shelf

/-- Whatever a step makes, the way to it is one that was open at first. -/
def MakesBeside (first : Tree) (shelf : Shelf σ) (step : Step) : Prop :=
  ∀ path, (shelf.step step).1 = .ok (some path) →
    ∃ entry, first.entryOf .alreadyExists path = .ok entry

/-- No step makes something inside of what a guard has made, or by a way through it. -/
def Beside (first : Tree) : Shelf σ → List Step → Prop
  | _, [] => True
  | shelf, step :: steps => MakesBeside first shelf step ∧ Beside first (shelf.step step).2 steps

/-- The guards of a shelf own what they have made, and nothing else is new. -/
structure Owns (first : Tree) (held : List Holding) (shelf : Shelf σ) : Prop where
  guards : shelf.guards = held.map Holding.guard
  tree : Owned first held shelf.world.tree

/-- Each guard removes what is at the entry that its path names, and nothing else. -/
def Releases (first : Tree) (shelf : Shelf σ) : Prop :=
  ∀ index guard, shelf.guards[index]? = some guard →
    ∃ entry, first.entryOf .alreadyExists guard.path = .ok entry ∧
      Tree.SameOutside entry.place shelf.world.tree (shelf.drop index).world.tree ∧
        ∀ rest, (shelf.drop index).world.tree.find? (entry.place ++ rest) = none

/-- A link is not made where a guard has one, and a link that is not made changes nothing, now or
when a guard is dropped. -/
structure MakesLinksOnce (shelf : Shelf σ) : Prop where
  taken : ∀ target, .link (linkPath target) ∈ shelf.guards →
    (shelf.step (.link target)).1 = .error (.io (linkPath target) .alreadyExists)
  refused : ∀ target error, (shelf.step (.link target)).1 = .error error →
    (shelf.step (.link target)).2.guards = shelf.guards ∧
      (shelf.step (.link target)).2.world.tree = shelf.world.tree ∧
        ∀ index, ((shelf.step (.link target)).2.drop index).world.tree =
          (shelf.drop index).world.tree

/-- A guarded link is where it has been made and leads to nothing. It goes with its guard. -/
structure Dangles (first : Tree) (target : String) (entry : Tree.Entry) (shelf : Shelf σ) :
    Prop where
  leads : first.entryOf .alreadyExists (linkPath target) = .ok entry
  guarded : .link (linkPath target) ∈ shelf.guards
  there : shelf.world.tree.find? entry.place = some (.link target)
  nowhere : shelf.world.tree.exists? (linkPath target) = .ok false ∨
    shelf.world.tree.exists? (linkPath target) = .error .tooManyLinks
  goes : ∀ index, shelf.guards[index]? = some (.link (linkPath target)) →
    (shelf.drop index).world.tree.find? entry.place = none

section

variable {first : Tree} {held : List Holding} {shelf : Shelf σ}

/-- What a step can do: it drops a guard, it makes something with a guard of its own, or it fails
and leaves all as it was. -/
theorem step_cases (hs : shelf.world.tree.Sound) (step : Step) :
    (∃ index, step = .drop index ∧ shelf.step step = (.ok none, shelf.drop index)) ∨
      (∃ x : Holding, (shelf.step step).1 = .ok (some x.guard.path) ∧
        (shelf.step step).2.guards = shelf.guards ++ [x.guard] ∧
          x.Made shelf.world.tree (shelf.step step).2.world.tree ∧
            (step.Plain shelf.world.tree.home →
              IsPlainPath shelf.world.tree.home x.guard.path)) ∨
      ∃ error, (shelf.step step).1 = .error error ∧
        (shelf.step step).2.guards = shelf.guards ∧
          shelf.world.tree.Alike (shelf.step step).2.world.tree := by
  cases step with
  | drop index => exact .inl ⟨index, rfl, rfl⟩
  | create owner =>
    right
    rcases hmade : HostPath.create owner shelf.world with ⟨result, w⟩
    simp only [step, keep, hmade]
    cases result with
    | ok path =>
      obtain ⟨entry, hentry⟩ := made_create hs hmade
      exact .inl ⟨⟨.directory path, entry⟩, rfl, rfl, hentry,
        fun howner => plain_create hs howner hmade⟩
    | error error => exact .inr ⟨error, rfl, rfl, alike_create hs hmade⟩
  | link target =>
    right
    rcases hmade : HostPath.link target shelf.world with ⟨result, w⟩
    simp only [step, keep, hmade]
    cases result with
    | ok path =>
      obtain ⟨entry, hentry⟩ := made_link hs hmade
      exact .inl ⟨⟨.link path, entry⟩, rfl, rfl, hentry, fun htarget => plain_link htarget hmade⟩
    | error error =>
      have htree := (link_run_eq_error hmade).1
      exact .inr ⟨error, rfl, rfl, htree ▸ .refl _⟩

/-- A link that cannot be made changes neither the guards nor the tree. -/
theorem step_link_eq_error {target : String} {error : Error}
    (h : (shelf.step (.link target)).1 = .error error) :
    (shelf.step (.link target)).2.guards = shelf.guards ∧
      (shelf.step (.link target)).2.world.tree = shelf.world.tree := by
  rcases hmade : HostPath.link target shelf.world with ⟨result, w⟩
  simp only [step, keep, hmade] at h ⊢
  cases result with
  | ok path => cases h
  | error error => exact ⟨rfl, (link_run_eq_error hmade).1⟩

/-- What a guard removes depends on the tree alone. -/
theorem tree_drop_congr {other : Shelf σ} (hguards : other.guards = shelf.guards)
    (htree : other.world.tree = shelf.world.tree) (index : Nat) :
    (other.drop index).world.tree = (shelf.drop index).world.tree := by
  unfold drop
  rw [hguards]
  cases shelf.guards[index]? with
  | none => exact htree
  | some guard =>
    cases guard with
    | directory path =>
      simp only [Guard.drop, World.discard, htree]
      cases shelf.world.tree.removeAll path with
      | ok tree => rfl
      | error fault => exact htree
    | link path =>
      simp only [Guard.drop, World.discardFile, htree]
      cases shelf.world.tree.removeFile path with
      | ok tree => rfl
      | error fault => exact htree

/-- Dropping brings no guard. -/
theorem mem_of_mem_drop {index : Nat} {guard : Guard} (h : guard ∈ (shelf.drop index).guards) :
    guard ∈ shelf.guards := by
  unfold drop at h
  split at h
  · exact h
  · exact List.mem_of_mem_eraseIdx h

/-- The other guards stay. -/
theorem mem_drop_of_ne {index : Nat} {guard other : Guard}
    (hget : shelf.guards[index]? = some guard) (hother : other ∈ shelf.guards)
    (hne : other ≠ guard) : other ∈ (shelf.drop index).guards := by
  obtain ⟨place, hplace⟩ := List.mem_iff_getElem?.mp hother
  unfold drop
  rw [hget]
  refine List.mem_eraseIdx_iff_getElem?.mpr ⟨place, ?_, hplace⟩
  rintro rfl
  rw [hget] at hplace
  exact hne (Option.some.inj hplace).symm

namespace Owns

variable (hs : first.Sound) (h : shelf.Owns first held)
include h

theorem getElem?_held {index : Nat} {guard : Guard} (hguard : shelf.guards[index]? = some guard) :
    ∃ entry, held[index]? = some ⟨guard, entry⟩ := by
  rw [h.guards, List.getElem?_map, Option.map_eq_some_iff] at hguard
  obtain ⟨x, hget, rfl⟩ := hguard
  exact ⟨x.entry, hget⟩

theorem exists_held {guard : Guard} (hguard : guard ∈ shelf.guards) :
    ∃ entry, ⟨guard, entry⟩ ∈ held := by
  rw [h.guards] at hguard
  obtain ⟨x, hx, rfl⟩ := List.mem_map.mp hguard
  exact ⟨x.entry, hx⟩

theorem plain_step {step : Step} (hplain : step.Plain first.home)
    (hguards : ∀ guard ∈ shelf.guards, IsPlainPath first.home guard.path) :
    ∀ guard ∈ (shelf.step step).2.guards, IsPlainPath first.home guard.path := by
  intro guard hguard
  rcases shelf.step_cases h.tree.sound step with ⟨index, -, hstep⟩ |
    ⟨x, -, hmade, -, hpath⟩ | ⟨error, -, hsame, -⟩
  · rw [hstep] at hguard
    exact hguards guard (mem_of_mem_drop hguard)
  · rw [hmade] at hguard
    rcases List.mem_append.mp hguard with hold | hnew
    · exact hguards guard hold
    · rw [List.mem_singleton.mp hnew, ← h.tree.home]
      exact hpath (h.tree.home ▸ hplain)
  · rw [hsame] at hguard
    exact hguards guard hguard

include hs

/-- The guard at a place is dropped: what it has made is removed. -/
theorem drop_of_get {index : Nat} {x : Holding} (hget : held[index]? = some x) :
    (shelf.drop index).guards = shelf.guards.eraseIdx index ∧
      (shelf.drop index).world.tree = shelf.world.tree.prune x.place := by
  have hguard : shelf.guards[index]? = some x.guard := by
    rw [h.guards, List.getElem?_map, hget]
    rfl
  unfold Shelf.drop
  rw [hguard]
  exact ⟨rfl, h.tree.tree_drop hs (List.mem_of_getElem? hget) rfl⟩

theorem tree_drop {index : Nat} {guard : Guard} {entry : Tree.Entry}
    (hguard : shelf.guards[index]? = some guard)
    (hleads : first.entryOf .alreadyExists guard.path = .ok entry) :
    (shelf.drop index).world.tree = shelf.world.tree.prune entry.place := by
  obtain ⟨entry', hget⟩ := h.getElem?_held hguard
  have hleads' := (h.tree.fits _ (List.mem_of_getElem? hget)).leads
  obtain rfl : entry' = entry := Except.ok.inj (hleads'.symm.trans hleads)
  exact (h.drop_of_get hs hget).2

theorem drop (index : Nat) : (shelf.drop index).Owns first (held.eraseIdx index) := by
  cases hget : held[index]? with
  | none =>
    have hguard : shelf.guards[index]? = none := by
      rw [h.guards, List.getElem?_map, hget]
      rfl
    unfold Shelf.drop
    rw [hguard, List.eraseIdx_of_length_le (List.getElem?_eq_none_iff.mp hget)]
    exact h
  | some x =>
    obtain ⟨hguards, htree⟩ := h.drop_of_get hs hget
    refine ⟨?_, ?_⟩
    · rw [hguards, h.guards, List.eraseIdx_map]
    · rw [htree]
      exact h.tree.remove hs hget

/-- Each step keeps to what it owns. -/
theorem step {step : Step} (hbeside : MakesBeside first shelf step) :
    ∃ held', (shelf.step step).2.Owns first held' := by
  rcases shelf.step_cases h.tree.sound step with ⟨index, -, hstep⟩ |
    ⟨x, hresult, hguards, hmade, -⟩ | ⟨error, -, hguards, halike⟩
  · rw [hstep]
    exact ⟨_, h.drop hs index⟩
  · obtain ⟨entry, hentry⟩ := hbeside x.guard.path hresult
    refine ⟨held ++ [x], ?_, h.tree.add hs hmade (h.tree.fits_first hs hmade.toFits hentry)⟩
    rw [hguards, h.guards, List.map_append, List.map_singleton]
  · exact ⟨held, hguards.trans h.guards, h.tree.alike halike⟩

theorem run {steps : List Step} (hbeside : Beside first shelf steps) :
    ∃ held', (shelf.run steps).Owns first held' := by
  induction steps generalizing shelf held with
  | nil => exact ⟨held, h⟩
  | cons step steps ih =>
    obtain ⟨hstep, hrest⟩ := hbeside
    obtain ⟨held', h'⟩ := h.step hs hstep
    exact ih h' hrest

/-- The way to an entry of the home is always open. -/
theorem beside_of_plain {step : Step} (hplain : step.Plain first.home) :
    MakesBeside first shelf step := by
  intro path hresult
  rcases shelf.step_cases h.tree.sound step with ⟨index, -, hstep⟩ |
    ⟨x, hmade, -, hfits, hpath⟩ | ⟨error, hfailed, -⟩
  · rw [hstep] at hresult
    cases hresult
  · rw [hmade] at hresult
    cases hresult
    rw [h.tree.home] at hpath
    obtain ⟨name, hname, heq⟩ := hpath hplain
    have hleads := hfits.leads
    rw [heq, ← h.tree.home] at hleads
    obtain ⟨hhome, -⟩ := Tree.isHomePath_of_entryOf h.tree.sound.toGrounded.standing hname hleads
      hfits.free.short
    rw [h.tree.home, ← heq] at hhome
    exact ⟨_, Tree.entryOf_homePath hs.toGrounded hhome _⟩
  · rw [hfailed] at hresult
    cases hresult

theorem plain_run {steps : List Step} (hplain : ∀ step ∈ steps, step.Plain first.home)
    (hguards : ∀ guard ∈ shelf.guards, IsPlainPath first.home guard.path) :
    Beside first shelf steps ∧
      ∀ guard ∈ (shelf.run steps).guards, IsPlainPath first.home guard.path := by
  induction steps generalizing shelf held with
  | nil => exact ⟨trivial, hguards⟩
  | cons step steps ih =>
    have hstep := hplain step List.mem_cons_self
    have hbeside := h.beside_of_plain hs hstep
    obtain ⟨held', h'⟩ := h.step hs hbeside
    obtain ⟨hrest, hlast⟩ := ih h' (fun later hmem => hplain later (List.mem_cons_of_mem _ hmem))
      (h.plain_step hstep hguards)
    exact ⟨⟨hbeside, hrest⟩, hlast⟩

/-- What a guard with a plain path has made is in the home itself. -/
theorem directory_of_plain (hguards : ∀ guard ∈ shelf.guards, IsPlainPath first.home guard.path)
    {x : Holding} (hx : x ∈ held) : x.entry.directory = first.home := by
  have hguard : x.guard ∈ shelf.guards := by
    rw [h.guards]
    exact List.mem_map_of_mem hx
  obtain ⟨name, hname, heq⟩ := hguards x.guard hguard
  have hfits := h.tree.fits x hx
  have hleads := hfits.leads
  rw [heq] at hleads
  obtain ⟨-, hentry⟩ := Tree.isHomePath_of_entryOf hs.toGrounded.standing hname hleads
    hfits.free.short
  rw [hentry]

/-- What has been made goes with its guard. -/
theorem releases : shelf.Releases first := by
  intro index guard hguard
  obtain ⟨entry, hget⟩ := h.getElem?_held hguard
  obtain ⟨-, htree⟩ := h.drop_of_get hs hget
  refine ⟨entry, (h.tree.fits _ (List.mem_of_getElem? hget)).leads, ?_, fun rest => ?_⟩
  · rw [htree]
    exact ⟨rfl, fun place hplace => Tree.find?_prune hplace _⟩
  · rw [htree]
    exact Tree.find?_prune_below entry.place_ne_nil (List.prefix_append _ rest) _

/-- A guarded link is where it has been made. -/
theorem exists_link {target : String} (hlink : .link (linkPath target) ∈ shelf.guards) :
    ∃ entry, Holding.Fits first ⟨.link (linkPath target), entry⟩ ∧
      shelf.world.tree.entryOf .alreadyExists (linkPath target) = .ok entry ∧
        shelf.world.tree.find? entry.place = some (.link target) ∧ target ≠ "" := by
  obtain ⟨entry, hheld⟩ := h.exists_held hlink
  have hstands : (Guard.link (linkPath target)).StandsAt shelf.world.tree entry.place :=
    h.tree.stands _ hheld
  obtain ⟨target', hsome, heq, hbelow⟩ := hstands
  obtain rfl := linkPath_injective heq
  have hthere := hbelow []
  rw [List.append_nil] at hthere
  have hleads := h.tree.leads hs hheld
  dsimp only [Guard.path] at hleads
  exact ⟨entry, h.tree.fits _ hheld, hleads, hthere, hsome⟩

/-- A guarded link is not made a second time. -/
theorem step_link_taken {target : String} (htaken : .link (linkPath target) ∈ shelf.guards) :
    (shelf.step (.link target)).1 = .error (.io (linkPath target) .alreadyExists) := by
  obtain ⟨entry, hfits, hleads, hthere, hsome⟩ := h.exists_link hs htaken
  have hfree := hfits.free
  have hdirectory := (h.tree.within hs).places _ _ hfree.directory
  have hmake := makeLink_taken hsome hleads hdirectory hfree.short hthere
  simp only [Shelf.step, keep, HostPath.link, bind_run, Session.makeLink, changeTree, hmake]
  rfl

theorem makesLinksOnce : shelf.MakesLinksOnce where
  taken target := h.step_link_taken hs
  refused target error hfailed := by
    obtain ⟨hguards, htree⟩ := step_link_eq_error hfailed
    exact ⟨hguards, htree, tree_drop_congr hguards htree⟩

/-- Once a directory has been dropped, a link to it leads nowhere. -/
theorem dangles {index : Nat} {path : String}
    (hguard : shelf.guards[index]? = some (.directory path))
    (hlink : .link (linkPath path) ∈ shelf.guards) :
    ∃ entry, (shelf.drop index).Dangles first path entry := by
  have hafter := h.drop hs index
  obtain ⟨entry, hget⟩ := h.getElem?_held hguard
  obtain ⟨-, htree⟩ := h.drop_of_get hs hget
  have hfits := h.tree.fits _ (List.mem_of_getElem? hget)
  have hpath := (hafter.tree.within hs).entryOf hfits.leads
  have hgone : (shelf.drop index).world.tree.find? entry.place = none := by
    rw [htree]
    exact Tree.find?_prune_self entry.place_ne_nil _
  have hkept := mem_drop_of_ne hguard hlink nofun
  obtain ⟨other, hfits', hleads, hthere, -⟩ := hafter.exists_link hs hkept
  refine ⟨other, hfits'.leads, hkept, hthere, ?_, fun later hlater => ?_⟩
  · exact Tree.exists?_dangling hafter.tree.sound hleads hfits'.free.short hfits'.slashless hthere
      hpath hfits.free.short hfits.slashless (hfits.absolute path rfl) hgone
  · rw [hafter.tree_drop hs hlater hfits'.leads]
    exact Tree.find?_prune_self other.place_ne_nil _

end Owns

end

/-- Whatever is made and dropped, in any order: as long as each thing is made beside what guards
have made, the tree is always what it was at first and what the live guards stand for, and each
guard removes just that. Steps that are plain make things in the home, beside each other. -/
theorem run_owns {w : World σ} (hs : w.tree.Sound) (steps : List Step) :
    ((∀ step ∈ steps, step.Plain w.tree.home) → Beside w.tree ⟨[], w⟩ steps) ∧
      (Beside w.tree ⟨[], w⟩ steps → ∃ held, (run ⟨[], w⟩ steps).Owns w.tree held ∧
        (∀ name, name ∈ (run ⟨[], w⟩ steps).world.tree.children w.tree.home ↔
          name ∈ w.tree.children w.tree.home ∨ ∃ x ∈ held, x.entry = ⟨w.tree.home, name⟩) ∧
        ((∀ step ∈ steps, step.Plain w.tree.home) →
          ∀ x ∈ held, x.entry.directory = w.tree.home) ∧
        (run ⟨[], w⟩ steps).Releases w.tree ∧ (run ⟨[], w⟩ steps).MakesLinksOnce ∧
          ∀ index path, (run ⟨[], w⟩ steps).guards[index]? = some (.directory path) →
            .link (linkPath path) ∈ (run ⟨[], w⟩ steps).guards →
              ∃ entry, ((run ⟨[], w⟩ steps).drop index).Dangles w.tree path entry) := by
  have hempty : (⟨[], w⟩ : Shelf σ).Owns w.tree [] := ⟨rfl, owned_nil hs⟩
  have hplain (hsteps : ∀ step ∈ steps, step.Plain w.tree.home) :=
    hempty.plain_run hs hsteps (by simp)
  refine ⟨fun hsteps => (hplain hsteps).1, fun hbeside => ?_⟩
  obtain ⟨held, howns⟩ := hempty.run hs hbeside
  have hchildren := howns.tree.mem_children hs
  rw [howns.tree.home] at hchildren
  exact ⟨held, howns, hchildren, fun hsteps x => howns.directory_of_plain hs (hplain hsteps).2,
    howns.releases hs, howns.makesLinksOnce hs, fun index path => howns.dangles hs⟩

/-- One of two directories is dropped, and a link to the other one is asked for twice. -/
theorem run_owns_linked :
    let w := World.start ⟨[(["tmp"], .directory), (["tmp", "notes"], .file [])], ["tmp"]⟩ ()
    let path := "/tmp/testpod-1Zq0000"
    let shelf := run ⟨[], w⟩ [.create "pod-1", .create "pod-2", .drop 1, .link path, .link path]
    w.tree.Sound ∧ shelf.guards = [.directory path, .link (linkPath path)] ∧
      (∃ held, shelf.Owns w.tree held ∧ ∀ x ∈ held, x.entry.directory = w.tree.home) ∧
        shelf.Releases w.tree ∧ shelf.MakesLinksOnce ∧
          ∃ entry, (shelf.drop 0).Dangles w.tree path entry := by
  intro w path shelf
  have hs : w.tree.Sound :=
    Tree.sound_of_entries rfl (.of_long (by decide) (by decide)) (by decide) rfl (by decide)
  have hguards : shelf.guards = [.directory path, .link (linkPath path)] := by decide +kernel
  have htarget : IsPlainPath w.tree.home path :=
    ⟨"testpod-1Zq0000", .of_long (by decide) (by decide), by decide⟩
  have hplain : ∀ step ∈ ([.create "pod-1", .create "pod-2", .drop 1, .link path, .link path] :
      List Step), step.Plain w.tree.home := by
    simpa [Step.Plain] using htarget
  obtain ⟨hbeside, howns⟩ := run_owns hs
    [.create "pod-1", .create "pod-2", .drop 1, .link path, .link path]
  obtain ⟨held, hheld, -, hhome, hreleases, hlinks, hdangles⟩ := howns (hbeside hplain)
  refine ⟨hs, hguards, ⟨held, hheld, hhome hplain⟩, hreleases, hlinks, hdangles 0 path ?_ ?_⟩
  · change shelf.guards[0]? = _
    rw [hguards]
    rfl
  · change _ ∈ shelf.guards
    rw [hguards]
    exact List.mem_cons_of_mem _ List.mem_cons_self

/-- A host path of a name with a slash can be in a directory that was there at first. A link that
is made in a host path is one thing more in it, and goes with it though its guard is live. -/
theorem run_inside :
    let w := World.start ⟨[(["tmp"], .directory), (["tmp", "testa"], .directory)], ["tmp"]⟩ ()
    let target := "/tmp/testZq0000/testVolume.file"
    let inside := run ⟨[], w⟩ [.create "a/b"]
    let beyond := run ⟨[], w⟩ [.create "", .link target]
    inside.guards = [.directory "/tmp/testa/bZq0000"] ∧
      inside.world.tree.children ["tmp"] = w.tree.children ["tmp"] ∧
      beyond.guards = [.directory "/tmp/testZq0000", .link (linkPath target)] ∧
      beyond.world.tree.children ["tmp", "testZq0000"] = [flagFile ++ "-symlink", flagFile] ∧
      (beyond.drop 0).guards = [.link (linkPath target)] ∧
      (beyond.drop 0).world.tree.children ["tmp"] = w.tree.children ["tmp"] := by
  decide +kernel

end Shelf

end Check

end ContainerCheck
