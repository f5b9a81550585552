import ContainerCheck.Proofs.LogSandbox

namespace ContainerCheck

open ContainerCheck.Cri ContainerCheck.Host ContainerCheck.Text

variable {σ : Type}

namespace Host.Tree

def HoldsHostPath (tree : Tree) (place : Place) : Prop :=
  place <+: tree.home ∨ ∃ suffix, place = tree.home ++ ["test" ++ suffix]

structure SameHostPaths (before after : Tree) : Prop where
  home : after.home = before.home
  places : ∀ place, before.HoldsHostPath place → after.find? place = before.find? place

theorem SameHostPaths.refl (tree : Tree) : tree.SameHostPaths tree := ⟨rfl, fun _ _ => rfl⟩

theorem SameHostPaths.trans {a b c : Tree} (hab : a.SameHostPaths b) (hbc : b.SameHostPaths c) :
    a.SameHostPaths c where
  home := hbc.home.trans hab.home
  places place hplace := by
    refine (hbc.places place ?_).trans (hab.places place hplace)
    unfold HoldsHostPath
    rw [hab.home]
    exact hplace

theorem SameHostPaths.grounded {before after : Tree} (h : before.SameHostPaths after)
    (hg : before.Grounded) : after.Grounded where
  directories place hplace := by
    rw [h.home] at hplace
    exact (h.places place (.inl hplace)).trans (hg.directories place hplace)
  names := by
    rw [h.home]
    exact hg.names

def AtHostPath (tree : Tree) (path : String) (found : Option Node) : Prop :=
  ∃ suffix, IsHomePath tree.home ("test" ++ suffix) path ∧
    tree.find? (tree.home ++ ["test" ++ suffix]) = found

section

variable {tree : Tree} {path target : String}

theorem AtHostPath.same {after : Tree} {found : Option Node} (hat : tree.AtHostPath path found)
    (h : tree.SameHostPaths after) : after.AtHostPath path found := by
  obtain ⟨suffix, hpath, hfind⟩ := hat
  refine ⟨suffix, ?_, ?_⟩
  · rw [h.home]
    exact hpath
  · rw [h.home, h.places _ (.inr ⟨suffix, rfl⟩)]
    exact hfind

theorem AtHostPath.exists?_directory (hat : tree.AtHostPath path (some .directory))
    (hg : tree.Grounded) : tree.exists? path = .ok true := by
  obtain ⟨suffix, hpath, hfind⟩ := hat
  rw [exists?_homePath hg hpath (.inr hfind), hfind]
  rfl

theorem AtHostPath.exists?_vacant (hat : tree.AtHostPath path none) (hg : tree.Grounded) :
    tree.exists? path = .ok false := by
  obtain ⟨suffix, hpath, hfind⟩ := hat
  rw [exists?_homePath hg hpath (.inl hfind), hfind]
  rfl

/-- A walk to a link in the home goes on where the link leads. -/
theorem resolve_homeLink {name : String} (hg : tree.Grounded) (hp : IsHomePath tree.home name path)
    (hlink : tree.find? (tree.home ++ [name]) = some (.link target)) :
    tree.resolve true path =
      tree.walk true (mostLinks - 1) (if (walkOf target).absolute then [] else tree.home)
        ((walkOf target).names ++ []) := by
  have hnul := hp.noNul
  have hfits := hp.fits
  rw [hp.path_eq] at hnul hfits ⊢
  have hdescend : tree.descend true [] (tree.home ++ [name]) =
      .ok (.atLink tree.home target []) := by
    rw [descend_home hg, descend_cons (findFrom?_home tree)]
    simp only [if_neg hp.isName.noDot, if_neg hp.isName.noDots, if_neg (Nat.not_lt.mpr hp.short),
      hlink]
    rfl
  unfold resolve
  rw [walkOf_pathOf_concat hg.isName hp.isName, walkFrom_pathOf true hnul hfits, walk, hdescend]
  rfl

/-- A link to a host path leads to something. -/
theorem AtHostPath.exists?_link (hat : tree.AtHostPath path (some (.link target)))
    (htarget : tree.AtHostPath target (some .directory)) (hg : tree.Grounded) :
    tree.exists? path = .ok true := by
  obtain ⟨suffix, hpath, hlink⟩ := hat
  obtain ⟨suffix', hpath', hfind⟩ := htarget
  have hdescend : tree.descend true [] (tree.home ++ ["test" ++ suffix']) =
      .ok (.arrived (tree.home ++ ["test" ++ suffix'])) := by
    rw [descend_home hg, descend_cons (findFrom?_home tree)]
    simp only [if_neg hpath'.isName.noDot, if_neg hpath'.isName.noDots,
      if_neg (Nat.not_lt.mpr hpath'.short), hfind]
    rfl
  unfold exists?
  rw [resolve_homeLink hg hpath hlink, hpath'.path_eq, walkOf_pathOf_concat hg.isName hpath'.isName,
    List.append_nil, if_pos rfl, walk, hdescend]
  simp only [findFrom?_concat, hfind]
  rfl

/-- Different paths are of different places. -/
theorem place_ne_of_path_ne {home : Place} {name name' path' : String}
    (hp : IsHomePath home name path) (hp' : IsHomePath home name' path') (hne : path ≠ path') :
    home ++ [name] ≠ home ++ [name'] := by
  intro heq
  apply hne
  rw [hp.path_eq, hp'.path_eq, heq]

theorem AtHostPath.put {found : Option Node} (hat : tree.AtHostPath path found)
    {name other : String} (hother : IsHomePath tree.home name other) (hne : path ≠ other)
    (node : Node) : (tree.put (tree.home ++ [name]) node).AtHostPath path found := by
  obtain ⟨suffix, hpath, hfind⟩ := hat
  have hplace := place_ne_of_path_ne hpath hother hne
  exact ⟨suffix, hpath,
    ((find?_put tree (List.concat_ne_nil _ _) node _).trans (if_neg hplace)).trans hfind⟩

theorem AtHostPath.prune {found : Option Node} (hat : tree.AtHostPath path found)
    {name other : String} (hother : IsHomePath tree.home name other) (hne : path ≠ other) :
    (tree.prune (tree.home ++ [name])).AtHostPath path found := by
  obtain ⟨suffix, hpath, hfind⟩ := hat
  have hplace := place_ne_of_path_ne hpath hother hne
  refine ⟨suffix, hpath, (find?_prune ?_ tree).trans hfind⟩
  intro hbelow
  rcases List.prefix_concat_iff.mp hbelow with heq | hhome
  · exact hplace heq.symm
  · exact not_prefix_home tree.home name (List.prefix_refl tree.home) hhome

theorem grounded_put {name : String} (hg : tree.Grounded) (node : Node) :
    (tree.put (tree.home ++ [name]) node).Grounded where
  directories place hplace := by
    have hne : place ≠ tree.home ++ [name] := by
      rintro rfl
      exact not_prefix_home tree.home name hplace (List.prefix_refl _)
    exact ((find?_put tree (List.concat_ne_nil _ _) node place).trans (if_neg hne)).trans
      (hg.directories place hplace)
  names := hg.names

/-- Where a file is written there was no directory. -/
theorem write_eq_ok {tree' : Tree} {content : List UInt8}
    (h : tree.write path content = .ok tree') :
    ∃ place node, tree.find? place ≠ some .directory ∧ tree' = tree.put place node := by
  obtain ⟨place, -, hwrite⟩ := bind_eq_ok_iff.mp h
  have hfind (hfound : tree.findFrom? place ≠ some .directory) :
      tree.find? place ≠ some .directory := by
    unfold findFrom? at hfound
    split at hfound
    · exact absurd rfl hfound
    · exact hfound
  split at hwrite
  · cases hwrite
  · next heq =>
    cases hwrite
    exact ⟨place, _, hfind (by simp [heq]), rfl⟩
  · next hdirectory _ =>
    split at hwrite
    · cases hwrite
      exact ⟨place, _, hfind hdirectory, rfl⟩
    · cases hwrite

/-- A file that is written leaves all directories. -/
theorem find?_write {tree' : Tree} {content : List UInt8} (h : tree.write path content = .ok tree')
    {place : Place} (hdir : tree.find? place = some .directory) :
    tree'.home = tree.home ∧ tree'.find? place = some .directory := by
  obtain ⟨written, node, hfind, rfl⟩ := write_eq_ok h
  refine ⟨rfl, ?_⟩
  have hroot : written ≠ [] := by
    rintro rfl
    exact hfind rfl
  have hne : place ≠ written := by
    rintro rfl
    exact hfind hdir
  exact ((find?_put tree hroot node place).trans (if_neg hne)).trans hdir

theorem makeLink_eq_ok {tree' : Tree} (h : tree.makeLink path target = .ok tree') :
    tree.create path (.link target) = .ok tree' := by
  unfold makeLink at h
  split at h
  · cases h
  · split at h
    · cases h
    · split at h
      · cases h
      · exact h

/-- A host path that is made is new, and nothing else changes in the home. -/
theorem create_hostPath {tree' : Tree} {suffix : String} {node : Node} (hg : tree.Grounded)
    (hname : IsName ("test" ++ suffix)) (hpath : path = pathOf (tree.home ++ ["test" ++ suffix]))
    (h : tree.create path node = .ok tree') :
    tree'.Grounded ∧ tree'.home = tree.home ∧ tree'.AtHostPath path (some node) ∧
      ∀ other found, other ≠ path → tree.AtHostPath other found →
        tree'.AtHostPath other found := by
  subst hpath
  obtain ⟨hhome, -, rfl⟩ := create_home hg hname h
  refine ⟨grounded_put hg node, rfl, ⟨suffix, hhome, ?_⟩, ?_⟩
  · exact (find?_put tree (List.concat_ne_nil _ _) node _).trans (if_pos rfl)
  · intro other found hne hat
    exact hat.put hhome hne node

/-- What is removed at a host path is gone, and nothing else changes in the home. -/
theorem prune_hostPath {suffix : String} (hg : tree.Grounded)
    (hp : IsHomePath tree.home ("test" ++ suffix) path) :
    (tree.prune (tree.home ++ ["test" ++ suffix])).Grounded ∧
      (tree.prune (tree.home ++ ["test" ++ suffix])).AtHostPath path none ∧
      ∀ other found, other ≠ path → tree.AtHostPath other found →
        (tree.prune (tree.home ++ ["test" ++ suffix])).AtHostPath other found := by
  refine ⟨grounded_prune hg _, ⟨suffix, hp, ?_⟩, fun other found hne hat => hat.prune hp hne⟩
  exact find?_prune_self (List.concat_ne_nil _ _) tree

theorem removeAll_hostPath (hg : tree.Grounded) (hat : tree.AtHostPath path (some .directory)) :
    ∃ tree', tree.removeAll path = .ok tree' ∧ tree'.Grounded ∧ tree'.AtHostPath path none ∧
      ∀ other found, other ≠ path → tree.AtHostPath other found →
        tree'.AtHostPath other found := by
  obtain ⟨suffix, hpath, hfind⟩ := hat
  exact ⟨_, removeAll_homePath hg hpath hfind, prune_hostPath hg hpath⟩

theorem removeFile_hostPath (hg : tree.Grounded)
    (hat : tree.AtHostPath path (some (.link target))) :
    ∃ tree', tree.removeFile path = .ok tree' ∧ tree'.Grounded ∧ tree'.AtHostPath path none ∧
      ∀ other found, other ≠ path → tree.AtHostPath other found →
        tree'.AtHostPath other found := by
  obtain ⟨suffix, hpath, hfind⟩ := hat
  refine ⟨_, ?_, prune_hostPath hg hpath⟩
  have hslash : endsInSlash path = false := by
    rw [hpath.path_eq]
    exact endsInSlash_pathOf_concat hpath.isName
  simp only [removeFile, entryOf_homePath hg hpath, look_homePath hg hpath, hfind, bind,
    Except.bind, hslash, Bool.false_eq_true, if_false]
  rfl

end

end Host.Tree

/-- A runtime that leaves host paths alone, and whose sandboxes can be part of a file's name. -/
structure Cri.Client.SparesHostPaths (client : Client σ) : Prop where
  respects : client.Respects fun before after => before.tree.SameHostPaths after.tree
  names : ∀ config now store id, (client.answer (.runSandbox config) now store).value = .ok id →
    '/' ∉ id.text.toList

structure World.HostCalm (w : World σ) : Prop where
  grounded : w.tree.Grounded
  pending : w.Respects fun before after => before.tree.SameHostPaths after.tree

namespace Check

open ContainerCheck.Session

/-- A conduct that leaves host paths alone, as they are at every call. -/
def SeesHostPaths : Conduct σ := fun w _ w' =>
  w.HostCalm → w'.HostCalm ∧ w.tree.SameHostPaths w'.tree ∧
    ∃ made, w.Made made w' ∧ ∀ call ∈ made, w.tree.SameHostPaths call.before.tree

theorem seesHostPaths_composes : Conduct.Composes (SeesHostPaths : Conduct σ) where
  rest w hcalm := ⟨hcalm, .refl _, [], .nil rfl, by simp⟩
  andThen := by
    intro w w' w'' outcome h h' hcalm
    obtain ⟨hcalm', hsame, made, hmade, hseen⟩ := h hcalm
    obtain ⟨hcalm'', hsame', more, hmore, hseen'⟩ := h' hcalm'
    refine ⟨hcalm'', hsame.trans hsame', made ++ more, hmade.append hmore, ?_⟩
    intro call hcall
    rcases List.mem_append.mp hcall with hmem | hmem
    · exact hseen call hmem
    · exact hsame.trans (hseen' call hmem)
  giveUp _ h := h

/-- Calls that are made before anything has changed see what a step leaves alone. -/
theorem seesHostPaths_of_respecting {w w' : World σ} {outcome : Option Error}
    (h : Respecting (fun before after => before.tree.SameHostPaths after.tree) w outcome w')
    {made : List (Call σ)} (hmade : w.Made made w')
    (hbefore : ∀ call ∈ made, call.before = w.store) : SeesHostPaths w outcome w' := by
  intro hcalm
  obtain ⟨hpending, hsame⟩ := h hcalm.pending
  refine ⟨⟨hsame.grounded hcalm.grounded, hpending⟩, hsame, made, hmade, fun call hcall => ?_⟩
  rw [hbefore call hcall]
  exact .refl _

namespace Harness

variable {h : Harness σ} (hclient : h.client.SparesHostPaths)
include hclient

theorem seesHostPaths_ask (request : Request) (w : World σ) (outcome : Option Error) :
    SeesHostPaths w outcome (h.client.ask request w).2 :=
  seesHostPaths_of_respecting (respecting_ask hclient.respects request w outcome)
    (.ask h.client request w) (by simp [Client.callOf])

theorem conducts_seesHostPaths : h.Conducts SeesHostPaths := by
  have hconducts := conducts_respecting hclient.respects (fun _ => .refl _) .trans
  exact
    { toComposes := seesHostPaths_composes
      sleeps := fun w span => seesHostPaths_of_respecting (hconducts.sleeps w span)
        (.nil (World.calls_sleep w span)) (by simp)
      notes := fun w deed hdeed => seesHostPaths_of_respecting (hconducts.notes w deed hdeed)
        (.nil (World.calls_noteNow w hdeed)) (by simp)
      draws := fun w => seesHostPaths_of_respecting (hconducts.draws w) (.nil rfl) (by simp)
      calls := fun request _ w => seesHostPaths_ask hclient request w _
      stops := fun id timeout w => seesHostPaths_of_respecting (hconducts.stops id timeout w)
        (made_stopContainer h id timeout w) (by simp [stopCall]) }

end Harness

theorem orDiscard_run_eq_ok {α : Type} {directory : String} {step : Session σ α} {w w' : World σ}
    {value : α} (h : Session.orDiscard directory step w = (.ok value, w')) :
    step w = (.ok value, w') := by
  unfold Session.orDiscard at h
  split at h
  · next heq => rw [heq, h]
  · cases h

theorem changeTree_run_eq_ok {deed : Deed} {path : String} {change : Tree → Except IoFault Tree}
    {w w' : World σ} (h : changeTree deed path change w = (.ok (), w')) :
    change w.tree = .ok w'.tree ∧ w'.pending = w.pending := by
  unfold changeTree at h
  split at h
  · next heq =>
    cases h
    exact ⟨heq, rfl⟩
  · cases h

/-- A host path is made in two steps: the directory, and the flag file in it. -/
theorem create_run_eq_ok {owner path : String} {w w' : World σ}
    (h : HostPath.create owner w = (.ok path, w')) : ∃ between : World σ,
      Session.makeTemporary ("test" ++ owner) w = (.ok path, between) ∧
        between.tree.write (joinPath path flagFile) [] = .ok w'.tree ∧
          w'.pending = between.pending := by
  obtain ⟨made, between, hmade, hrest⟩ := bind_run_eq_ok h
  obtain ⟨⟨⟩, w₂, hfile, hpath⟩ := bind_run_eq_ok (orDiscard_run_eq_ok hrest)
  cases hpath
  exact ⟨between, hmade, changeTree_run_eq_ok hfile⟩

theorem link_run_eq_ok {target path : String} {w w' : World σ}
    (h : HostPath.link target w = (.ok path, w')) :
    path = linkPath target ∧ w.tree.makeLink path target = .ok w'.tree ∧
      w'.pending = w.pending := by
  obtain ⟨⟨⟩, w₁, hmade, hpath⟩ := bind_run_eq_ok h
  cases hpath
  exact ⟨rfl, changeTree_run_eq_ok hmade⟩

theorem isName_hostPath {owner : String} (howner : '/' ∉ owner.toList) (n : Nat) :
    IsName ("test" ++ owner ++ World.freshSuffix n) := by
  refine World.isName_fresh ?_ n
  rw [String.toList_append, List.mem_append, not_or]
  exact ⟨by decide, howner⟩

/-- A fresh directory in the home is a host path if its stem begins like one. -/
theorem hostPath_makeTemporary {owner path : String} (howner : '/' ∉ owner.toList) {w w' : World σ}
    (hcalm : w.HostCalm) (h : Session.makeTemporary ("test" ++ owner) w = (.ok path, w')) :
    w'.HostCalm ∧ w'.tree.AtHostPath path (some .directory) := by
  obtain ⟨hmake, hpending, n, hpath⟩ := makeTemporary_run_eq_ok h
  have hname := isName_hostPath howner n
  rw [World.home, joinPath_pathOf hcalm.grounded.isName hname] at hpath
  rw [String.append_assoc] at hpath hname
  obtain ⟨hg, -, hat, -⟩ := Tree.create_hostPath hcalm.grounded hname hpath hmake
  exact ⟨⟨hg, hcalm.pending.same hpending⟩, hat⟩

/-- A host path that is made is a directory. -/
theorem hostPath_create {owner path : String} (howner : '/' ∉ owner.toList) {w w' : World σ}
    (hcalm : w.HostCalm) (h : HostPath.create owner w = (.ok path, w')) :
    w'.HostCalm ∧ w'.tree.AtHostPath path (some .directory) := by
  obtain ⟨w₁, hmade, hwrite, hpending⟩ := create_run_eq_ok h
  obtain ⟨hcalm₁, suffix, hhome, hfind⟩ := hostPath_makeTemporary howner hcalm hmade
  have hstays : ∀ place, w₁.tree.find? place = some .directory →
      w'.tree.find? place = some .directory := fun place hdir => (Tree.find?_write hwrite hdir).2
  have hsameHome : w'.tree.home = w₁.tree.home := (Tree.find?_write hwrite hfind).1
  refine ⟨⟨⟨?_, ?_⟩, hcalm₁.pending.same hpending⟩, suffix, ?_, ?_⟩
  · intro place hplace
    rw [hsameHome] at hplace
    exact hstays place (hcalm₁.grounded.directories place hplace)
  · rw [hsameHome]
    exact hcalm₁.grounded.names
  · rw [hsameHome]
    exact hhome
  · rw [hsameHome]
    exact hstays _ hfind

theorem linkPath_pathOf (place : Place) (name : String) :
    linkPath (pathOf (place ++ [name])) = pathOf (place ++ [name ++ "-symlink"]) :=
  pathOf_concat_append place name "-symlink"

/-- The name of the link to a host path. -/
theorem isName_link {name : String} (h : IsName name) : IsName (name ++ "-symlink") := by
  refine .of_long ?_ ?_
  · rw [String.toList_append, List.mem_append, not_or]
    exact ⟨h.noSlash, by decide⟩
  · have hlength : "-symlink".toList.length = 8 := by decide
    rw [String.toList_append, List.length_append, hlength]
    omega

theorem linkPath_ne (path : String) : linkPath path ≠ path := by
  intro heq
  have hlength := congrArg (fun text : String => text.toList.length) heq
  simp [linkPath] at hlength

theorem linkPath_injective {path path' : String} (h : linkPath path = linkPath path') :
    path = path' := by
  have htext := congrArg String.toList h
  simp only [linkPath, String.toList_append] at htext
  exact String.toList_inj.mp (List.append_cancel_right htext)

/-- A link that is made to a host path leads to it. -/
theorem hostPath_link {path link : String} {w w' : World σ} (hcalm : w.HostCalm)
    (hat : w.tree.AtHostPath path (some .directory))
    (h : HostPath.link path w = (.ok link, w')) :
    w'.HostCalm ∧ link = linkPath path ∧ w'.tree.AtHostPath link (some (.link path)) ∧
      w'.tree.AtHostPath path (some .directory) := by
  obtain ⟨rfl, hmake, hpending⟩ := link_run_eq_ok h
  have ⟨suffix, hhome, _⟩ := hat
  have hname := isName_link hhome.isName
  have hpath : linkPath path =
      pathOf (w.tree.home ++ ["test" ++ (suffix ++ "-symlink")]) := by
    rw [hhome.path_eq, linkPath_pathOf, String.append_assoc]
  rw [String.append_assoc] at hname
  obtain ⟨hg, -, hlinked, hothers⟩ :=
    Tree.create_hostPath hcalm.grounded hname hpath (Tree.makeLink_eq_ok hmake)
  exact ⟨⟨hg, hcalm.pending.same hpending⟩, rfl, hlinked,
    hothers path _ (Ne.symm (linkPath_ne path)) hat⟩

/-- A host path whose guard is dropped is gone, and the others stay. -/
theorem discard_hostPath {path : String} {w : World σ} (hcalm : w.HostCalm)
    (hat : w.tree.AtHostPath path (some .directory)) :
    (w.discard path).HostCalm ∧ (w.discard path).tree.AtHostPath path none ∧
      ∀ other found, other ≠ path → w.tree.AtHostPath other found →
        (w.discard path).tree.AtHostPath other found := by
  obtain ⟨tree, hremove, hg, hgone, hothers⟩ := Tree.removeAll_hostPath hcalm.grounded hat
  have hdiscard : w.discard path = w.setTree tree := by
    unfold World.discard
    rw [hremove]
  rw [hdiscard]
  exact ⟨⟨hg, hcalm.pending⟩, hgone, hothers⟩

/-- A link whose guard is dropped is gone, and the others stay. -/
theorem discardFile_hostPath {path target : String} {w : World σ} (hcalm : w.HostCalm)
    (hat : w.tree.AtHostPath path (some (.link target))) :
    (w.discardFile path).HostCalm ∧ (w.discardFile path).tree.AtHostPath path none ∧
      ∀ other found, other ≠ path → w.tree.AtHostPath other found →
        (w.discardFile path).tree.AtHostPath other found := by
  obtain ⟨tree, hremove, hg, hgone, hothers⟩ := Tree.removeFile_hostPath hcalm.grounded hat
  have hdiscard : w.discardFile path = w.setTree tree := by
    unfold World.discardFile
    rw [hremove]
  rw [hdiscard]
  exact ⟨⟨hg, hcalm.pending⟩, hgone, hothers⟩

end Check

end ContainerCheck
