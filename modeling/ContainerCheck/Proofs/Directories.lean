import ContainerCheck.Host.Files
import ContainerCheck.Proofs.Paths
import ContainerCheck.Proofs.Results

namespace ContainerCheck.Host.Tree

open ContainerCheck.Text

theorem lookup_filter {k : Place → Bool} {place : Place} (h : k place = true)
    (entries : List (Place × Node)) :
    (entries.filter fun e => k e.1).lookup place = entries.lookup place := by
  induction entries with
  | nil => rfl
  | cons e entries ih =>
    obtain ⟨entry, node⟩ := e
    by_cases heq : place = entry
    · subst heq
      rw [List.filter_cons, if_pos h, List.lookup_cons_self, List.lookup_cons_self]
    · have hbeq : (place == entry) = false := by simpa using heq
      rw [List.lookup_cons, hbeq, List.filter_cons]
      split
      · rw [List.lookup_cons, hbeq]
        exact ih
      · exact ih

theorem lookup_filter_of_not {k : Place → Bool} {place : Place} (h : k place = false)
    (entries : List (Place × Node)) : (entries.filter fun e => k e.1).lookup place = none := by
  rw [List.lookup_eq_none_iff]
  intro e he
  have hkeep := (List.mem_filter.mp he).2
  have hne : place ≠ e.1 := by
    rintro rfl
    rw [h] at hkeep
    cases hkeep
  simpa using hne

theorem find?_of_ne {tree : Tree} {place : Place} (h : place ≠ []) :
    tree.find? place = tree.entries.lookup place := if_neg h

theorem find?_put (tree : Tree) {place : Place} (hp : place ≠ []) (node : Node) (other : Place) :
    (tree.put place node).find? other = if other = place then some node else tree.find? other := by
  by_cases hroot : other = []
  · subst hroot
    rw [if_neg (Ne.symm hp)]
    rfl
  · rw [find?_of_ne hroot, find?_of_ne hroot]
    unfold put
    split
    · next heq => simp [heq]
    · next heq =>
      have hbeq : (other == place) = false := by simpa using heq
      rw [List.lookup_cons, hbeq]
      exact lookup_filter (k := fun p => decide (p ≠ place)) (by simpa using heq) _

/-- What is not below a pruned place stays. -/
theorem find?_prune {place other : Place} (h : ¬ place <+: other) (tree : Tree) :
    (tree.prune place).find? other = tree.find? other := by
  by_cases hroot : other = []
  · subst hroot
    rfl
  · rw [find?_of_ne hroot, find?_of_ne hroot]
    apply lookup_filter (k := fun p => decide ¬ place.isPrefixOf p)
    simpa using h

theorem find?_prune_self {place : Place} (h : place ≠ []) (tree : Tree) :
    (tree.prune place).find? place = none := by
  rw [find?_of_ne h]
  apply lookup_filter_of_not (k := fun p => decide ¬ place.isPrefixOf p)
  simp

/-- What is below neither place of a move stays. -/
theorem find?_move {source target other : Place} (hs : ¬ source <+: other)
    (ht : ¬ target <+: other) (tree : Tree) :
    (tree.move source target).find? other = tree.find? other := by
  by_cases hroot : other = []
  · subst hroot
    rfl
  · have hkept := (find?_prune hs (tree.prune target)).trans (find?_prune ht tree)
    rw [find?_of_ne hroot] at hkept ⊢
    unfold move
    rw [List.lookup_append]
    -- All that is moved comes to stand below the target.
    have hmoved : ((tree.entries.filter fun e => source.isPrefixOf e.1).map
        fun e => (target ++ e.1.drop source.length, e.2)).lookup other = none := by
      rw [List.lookup_eq_none_iff]
      intro e he
      obtain ⟨e', _, rfl⟩ := List.mem_map.mp he
      have hne : other ≠ target ++ e'.1.drop source.length := by
        rintro rfl
        exact ht (List.prefix_append _ _)
      simpa using hne
    rw [hmoved]
    exact hkept

/-- The home of temporary directories can be walked to: its names are names of files, and all on
the way to it are directories. -/
structure Grounded (tree : Tree) : Prop where
  directories : ∀ place, place <+: tree.home → tree.find? place = some .directory
  names : ∀ name ∈ tree.home, IsName name ∧ byteLength name.toList ≤ longestName

theorem Grounded.isName {tree : Tree} (hg : tree.Grounded) : ∀ name ∈ tree.home, IsName name :=
  fun name hname => (hg.names name hname).1

structure Standing (tree : Tree) (place : Place) : Prop where
  below : tree.home <+: place
  directories : ∀ way, way <+: place → tree.find? way = some .directory
  names : ∀ name ∈ place, IsName name ∧ byteLength name.toList ≤ longestName

theorem Standing.isName {tree : Tree} {place : Place} (hs : tree.Standing place) :
    ∀ name ∈ place, IsName name := fun name hname => (hs.names name hname).1

theorem Grounded.standing {tree : Tree} (hg : tree.Grounded) : tree.Standing tree.home :=
  ⟨List.prefix_refl _, hg.directories, hg.names⟩

theorem findFrom?_home (tree : Tree) : tree.findFrom? tree.home = some .directory := if_pos rfl

theorem Standing.findFrom? {tree : Tree} {place : Place} (hs : tree.Standing place) :
    tree.findFrom? place = some .directory := by
  unfold Tree.findFrom?
  rw [hs.directories place (List.prefix_refl _), ite_self]

/-- A walk starts from somewhere else only at home. -/
theorem Standing.findFrom?_inside {tree : Tree} {place : Place} (hs : tree.Standing place)
    (name : String) : tree.findFrom? (place ++ [name]) = tree.find? (place ++ [name]) := by
  refine if_neg ?_
  intro heq
  have hlength := congrArg List.length heq
  have hbelow := hs.below.length_le
  rw [List.length_append, List.length_singleton] at hlength
  omega

/-- A step of a walk that stands in a directory. -/
theorem descend_cons {tree : Tree} {place : Place} (h : tree.findFrom? place = some .directory)
    (follow : Bool) (name : String) (names : List String) :
    tree.descend follow place (name :: names) =
      if name = "." then tree.descend follow place names
      else if name = ".." then tree.descend follow place.dropLast names
      else if longestName < byteLength name.toList then .error .nameTooLong
      else
        match tree.find? (place ++ [name]) with
        | none => if names = [] then .ok (.arrived (place ++ [name])) else .error .noEntry
        | some (.link target) =>
          if names = [] ∧ ¬ follow then .ok (.arrived (place ++ [name]))
          else .ok (.atLink place target names)
        | some _ => tree.descend follow (place ++ [name]) names := by
  rw [descend]
  generalize tree.findFrom? place = found at h ⊢
  subst h
  rfl

/-- A walk through directories gets to where they lead. -/
theorem descend_directories {tree : Tree} (follow : Bool) {place : Place} {names : List String}
    (hdirs : ∀ way, way <+: names → tree.find? (place ++ way) = some .directory)
    (hnames : ∀ name ∈ names, IsName name ∧ byteLength name.toList ≤ longestName)
    (rest : List String) :
    tree.descend follow place (names ++ rest) = tree.descend follow (place ++ names) rest := by
  -- The place moves along with the names, so what is known of the ways moves with it.
  induction names generalizing place with
  | nil => rw [List.append_nil, List.nil_append]
  | cons name names ih =>
    have hhere : tree.findFrom? place = some .directory := by
      have hplace := hdirs [] (List.nil_prefix)
      rw [List.append_nil] at hplace
      unfold findFrom?
      rw [hplace, ite_self]
    have hnext := hdirs [name] (List.prefix_append [name] names)
    obtain ⟨hname, hshort⟩ := hnames name List.mem_cons_self
    have hbelow : ∀ way, way <+: names →
        tree.find? ((place ++ [name]) ++ way) = some .directory := by
      intro way hway
      rw [List.append_assoc]
      exact hdirs (name :: way) (List.cons_prefix_cons.mpr ⟨rfl, hway⟩)
    have hrest := ih hbelow fun other hother => hnames other (List.mem_cons_of_mem _ hother)
    rw [List.cons_append, descend_cons hhere]
    simp only [if_neg hname.noDot, if_neg hname.noDots, if_neg (Nat.not_lt.mpr hshort), hnext]
    rw [hrest, List.append_assoc, List.singleton_append]

theorem descend_standing {tree : Tree} {place : Place} (hs : tree.Standing place) (follow : Bool)
    (rest : List String) :
    tree.descend follow [] (place ++ rest) = tree.descend follow place rest := by
  have hdirs : ∀ way, way <+: place → tree.find? ([] ++ way) = some .directory := hs.directories
  exact descend_directories follow hdirs hs.names rest

theorem descend_home {tree : Tree} (hg : tree.Grounded) (follow : Bool) (rest : List String) :
    tree.descend follow [] (tree.home ++ rest) = tree.descend follow tree.home rest :=
  descend_standing hg.standing follow rest

structure IsHomePath (home : Place) (name path : String) : Prop where
  isName : IsName name
  short : byteLength name.toList ≤ longestName
  path_eq : path = pathOf (home ++ [name])
  noNul : '\x00' ∉ path.toList
  fits : byteLength path.toList ≤ longestPath

section

variable {tree : Tree} {place : Place} {name path : String}

/-- A walk from a path of a place begins at the root. -/
theorem walkFrom_pathOf (follow : Bool) {place : Place} {names : List String}
    (hnul : '\x00' ∉ (pathOf place).toList)
    (hfits : byteLength (pathOf place).toList ≤ longestPath) :
    tree.walkFrom follow (pathOf place) names = tree.walk follow mostLinks [] names := by
  have hne : pathOf place ≠ "" := by
    intro heq
    have htext := toList_pathOf place
    rw [heq] at htext
    cases htext
  unfold walkFrom
  rw [if_neg hnul, if_neg hne, if_neg (Nat.not_lt.mpr hfits), if_pos (isAbsolute_pathOf place)]

/-- Where a name in a directory leads to, if it is no link. -/
theorem resolve_inside (hs : tree.Standing place) (hp : IsHomePath place name path) (follow : Bool)
    (h : ∀ target, tree.find? (place ++ [name]) ≠ some (.link target)) :
    tree.resolve follow path = .ok (place ++ [name]) := by
  have hnul := hp.noNul
  have hfits := hp.fits
  rw [hp.path_eq] at hnul hfits ⊢
  have hdescend : tree.descend follow [] (place ++ [name]) = .ok (.arrived (place ++ [name])) := by
    rw [descend_standing hs, descend_cons hs.findFrom?]
    simp only [if_neg hp.isName.noDot, if_neg hp.isName.noDots, if_neg (Nat.not_lt.mpr hp.short)]
    cases hfind : tree.find? (place ++ [name]) with
    | none => rfl
    | some node =>
      cases node with
      | file content => rfl
      | directory => rfl
      | link target => exact absurd hfind (h target)
  unfold resolve
  rw [walkOf_pathOf_concat hs.isName hp.isName, walkFrom_pathOf follow hnul hfits, walk, hdescend]

/-- Where a name in the home leads to, if it is free or a directory. -/
theorem resolve_homePath (hg : tree.Grounded) (hp : IsHomePath tree.home name path) (follow : Bool)
    (h : tree.find? (tree.home ++ [name]) = none ∨
      tree.find? (tree.home ++ [name]) = some .directory) :
    tree.resolve follow path = .ok (tree.home ++ [name]) := by
  refine resolve_inside hg.standing hp follow ?_
  intro target hlink
  rcases h with h | h
  · rw [h] at hlink
    cases hlink
  · rw [h] at hlink
    cases hlink

theorem findFrom?_concat (tree : Tree) (name : String) :
    tree.findFrom? (tree.home ++ [name]) = tree.find? (tree.home ++ [name]) := if_neg (by simp)

theorem exists?_homePath (hg : tree.Grounded) (hp : IsHomePath tree.home name path)
    (h : tree.find? (tree.home ++ [name]) = none ∨
      tree.find? (tree.home ++ [name]) = some .directory) :
    tree.exists? path = .ok (tree.find? (tree.home ++ [name])).isSome := by
  unfold exists?
  rw [resolve_homePath hg hp true h]
  simp only [findFrom?_concat]

theorem removeAll_homePath (hg : tree.Grounded) (hp : IsHomePath tree.home name path)
    (h : tree.find? (tree.home ++ [name]) = some .directory) :
    tree.removeAll path = .ok (tree.prune (tree.home ++ [name])) := by
  unfold removeAll
  rw [resolve_homePath hg hp false (.inr h)]
  simp only [bind, Except.bind, h]
  rfl

theorem walkFrom_eq_ok_iff {follow : Bool} {names : List String} :
    tree.walkFrom follow path names = .ok place ↔
      '\x00' ∉ path.toList ∧ path ≠ "" ∧ byteLength path.toList ≤ longestPath ∧
        tree.walk follow mostLinks (if isAbsolute path then [] else tree.home) names =
          .ok place := by
  unfold walkFrom
  by_cases hnul : '\x00' ∈ path.toList
  · simp [hnul]
  by_cases hpath : path = ""
  · simp [hpath]
  by_cases hlong : longestPath < byteLength path.toList
  · simp [hnul, hpath, hlong, Nat.not_le.mpr hlong]
  · simp [hnul, hpath, hlong, Nat.not_lt.mp hlong]

theorem fits_of_walkFrom_ok {follow : Bool} {names : List String}
    (h : tree.walkFrom follow path names = .ok place) :
    '\x00' ∉ path.toList ∧ byteLength path.toList ≤ longestPath :=
  have ⟨hnul, _, hfits, _⟩ := walkFrom_eq_ok_iff.mp h
  ⟨hnul, hfits⟩

/-- What an entry is found by. -/
theorem entryOf_eq_ok {unnamed : IoFault} {entry : Entry}
    (h : tree.entryOf unnamed path = .ok entry) :
    ∃ init, namesOf path = init ++ [entry.name] ∧
      tree.walkFrom true path (init ++ ["."]) = .ok entry.directory ∧
      entry.name ≠ "." ∧ entry.name ≠ ".." := by
  unfold entryOf at h
  obtain ⟨directory, hdirectory, hlast⟩ := bind_eq_ok_iff.mp h
  split at hlast
  · cases hlast
  · next last heq =>
    split at hlast
    · cases hlast
    · next hdots =>
      cases hlast
      obtain ⟨init, hinit⟩ := List.getLast?_eq_some_iff.mp heq
      rw [hinit, List.dropLast_concat] at hdirectory
      refine ⟨init, hinit, hdirectory, ?_, ?_⟩
      · intro hdot
        exact hdots (.inl hdot)
      · intro hdot
        exact hdots (.inr hdot)

theorem look_eq_ok {entry : Entry} {found : Option Node} (h : tree.look entry = .ok found) :
    tree.isDirectory entry.directory = true ∧ byteLength entry.name.toList ≤ longestName ∧
      found = tree.find? entry.place := by
  unfold look at h
  split at h
  · cases h
  · next hdirectory =>
    split at h
    · cases h
    · next hshort =>
      cases h
      exact ⟨by simpa using hdirectory, Nat.not_lt.mp hshort, rfl⟩

theorem walk_standing (hs : tree.Standing place) :
    tree.walk true mostLinks [] (place ++ ["."]) = .ok place := by
  have hdescend : tree.descend true [] (place ++ ["."]) = .ok (.arrived place) := by
    rw [descend_standing hs, descend_cons hs.findFrom?]
    rfl
  rw [walk, hdescend]

/-- The entry of a name in a directory. -/
theorem entryOf_inside (hs : tree.Standing place) (hp : IsHomePath place name path)
    (unnamed : IoFault) : tree.entryOf unnamed path = .ok ⟨place, name⟩ := by
  have hnul := hp.noNul
  have hfits := hp.fits
  have hdots : ¬ (name = "." ∨ name = "..") := not_or.mpr ⟨hp.isName.noDot, hp.isName.noDots⟩
  rw [hp.path_eq] at hnul hfits ⊢
  simp only [entryOf, namesOf_pathOf_concat hs.isName hp.isName, List.dropLast_concat,
    List.getLast?_concat, walkFrom_pathOf true hnul hfits, walk_standing hs, bind, Except.bind,
    if_neg hdots]
  rfl

theorem look_inside (hs : tree.Standing place) (hp : IsHomePath place name path) :
    tree.look ⟨place, name⟩ = .ok (tree.find? (place ++ [name])) := by
  have hdirectory : tree.isDirectory place = true := by
    unfold isDirectory
    rw [hs.directories place (List.prefix_refl _)]
    rfl
  unfold look
  simp only [hdirectory, not_true_eq_false, if_false, if_neg (Nat.not_lt.mpr hp.short)]
  rfl

/-- A name in a directory whose path leads to an entry fits, and is that of the entry. -/
theorem isHomePath_of_entryOf {unnamed : IoFault} {entry : Entry} (hs : tree.Standing place)
    (hname : IsName name) (hentry : tree.entryOf unnamed (pathOf (place ++ [name])) = .ok entry)
    (hshort : byteLength entry.name.toList ≤ longestName) :
    IsHomePath place name (pathOf (place ++ [name])) ∧ entry = ⟨place, name⟩ := by
  obtain ⟨init, hnames, hdirectory, _, _⟩ := entryOf_eq_ok hentry
  obtain ⟨hnul, hfits⟩ := fits_of_walkFrom_ok hdirectory
  rw [namesOf_pathOf_concat hs.isName hname] at hnames
  obtain ⟨-, hlast⟩ := List.append_inj' hnames rfl
  rw [← (List.cons.inj hlast).1] at hshort
  have hpath : IsHomePath place name (pathOf (place ++ [name])) := ⟨hname, hshort, rfl, hnul, hfits⟩
  rw [entryOf_inside hs hpath] at hentry
  exact ⟨hpath, (Except.ok.inj hentry).symm⟩

/-- What can be made in the home was not there, and is all that is new. -/
theorem create_home {tree' : Tree} {node : Node} (hg : tree.Grounded) (hname : IsName name)
    (h : tree.create (pathOf (tree.home ++ [name])) node = .ok tree') :
    IsHomePath tree.home name (pathOf (tree.home ++ [name])) ∧
      tree.find? (tree.home ++ [name]) = none ∧ tree' = tree.put (tree.home ++ [name]) node := by
  obtain ⟨entry, hentry, hrest⟩ := bind_eq_ok_iff.mp h
  obtain ⟨found, hlook, hput⟩ := bind_eq_ok_iff.mp hrest
  obtain ⟨_, hshort, rfl⟩ := look_eq_ok hlook
  obtain ⟨hpath, rfl⟩ := isHomePath_of_entryOf hg.standing hname hentry hshort
  refine ⟨hpath, ?_⟩
  dsimp only [Entry.place] at hput
  cases hfree : tree.find? (tree.home ++ [name]) with
  | some node =>
    rw [hfree] at hput
    cases hput
  | none =>
    rw [hfree] at hput
    simp only [endsInSlash_pathOf_concat hname, Bool.false_eq_true, false_and, if_false] at hput
    cases hput
    exact ⟨rfl, rfl⟩

/-- A directory that can be made in the home was not there, and is all that is new. -/
theorem makeDirectory_home {tree' : Tree} (hg : tree.Grounded) (hname : IsName name)
    (h : tree.makeDirectory (pathOf (tree.home ++ [name])) = .ok tree') :
    IsHomePath tree.home name (pathOf (tree.home ++ [name])) ∧
      tree.find? (tree.home ++ [name]) = none ∧
      tree' = tree.put (tree.home ++ [name]) .directory := create_home hg hname h

theorem entryOf_homePath (hg : tree.Grounded) (hp : IsHomePath tree.home name path)
    (unnamed : IoFault) : tree.entryOf unnamed path = .ok ⟨tree.home, name⟩ :=
  entryOf_inside hg.standing hp unnamed

theorem look_homePath (hg : tree.Grounded) (hp : IsHomePath tree.home name path) :
    tree.look ⟨tree.home, name⟩ = .ok (tree.find? (tree.home ++ [name])) :=
  look_inside hg.standing hp

end

end ContainerCheck.Host.Tree
