import ContainerCheck.Proofs.HostPaths

namespace ContainerCheck.Host.Tree

open ContainerCheck.Text

structure Alike (before after : Tree) : Prop where
  home : after.home = before.home
  places : ∀ place, after.find? place = before.find? place

theorem Alike.refl (tree : Tree) : tree.Alike tree := ⟨rfl, fun _ => rfl⟩

structure SameOutside (scratch : Place) (before after : Tree) : Prop where
  home : after.home = before.home
  places : ∀ place, ¬ scratch <+: place → after.find? place = before.find? place

theorem SameOutside.trans {scratch : Place} {a b c : Tree} (hab : SameOutside scratch a b)
    (hbc : SameOutside scratch b c) : SameOutside scratch a c :=
  ⟨hbc.home.trans hab.home,
    fun place hplace => (hbc.places place hplace).trans (hab.places place hplace)⟩

theorem Alike.sameOutside {before after : Tree} (h : before.Alike after) (scratch : Place) :
    SameOutside scratch before after := ⟨h.home, fun place _ => h.places place⟩

section

variable {tree : Tree} {scratch place : Place} {name path : String}

theorem sameOutside_put (hplace : scratch <+: place) (hne : place ≠ []) (node : Node) :
    SameOutside scratch tree (tree.put place node) where
  home := rfl
  places := by
    intro other hother
    have hother' : other ≠ place := by
      rintro rfl
      exact hother hplace
    exact (find?_put tree hne node other).trans (if_neg hother')

theorem sameOutside_move {source target : Place} (hsource : scratch <+: source)
    (htarget : scratch <+: target) : SameOutside scratch tree (tree.move source target) where
  home := rfl
  places _ hother := find?_move (fun h => hother (hsource.trans h))
    (fun h => hother (htarget.trans h)) tree

theorem find?_prune_below {other : Place} (hne : place ≠ []) (h : place <+: other) (tree : Tree) :
    (tree.prune place).find? other = none := by
  have hother : other ≠ [] := by
    rintro rfl
    exact hne (List.prefix_nil.mp h)
  rw [find?_of_ne hother]
  apply lookup_filter_of_not (k := fun p => decide ¬ place.isPrefixOf p)
  simpa using h

/-- What was made at a place where nothing was is gone when it is pruned. -/
theorem alike_prune {after : Tree} (hne : scratch ≠ [])
    (hvacant : ∀ place, scratch <+: place → tree.find? place = none)
    (h : SameOutside scratch tree after) : tree.Alike (after.prune scratch) where
  home := h.home
  places other := by
    by_cases hbelow : scratch <+: other
    · rw [find?_prune_below hne hbelow, hvacant other hbelow]
    · rw [find?_prune hbelow, h.places other hbelow]

/-- What is moved is found where it has been moved to. -/
theorem find?_move_below {source target : Place} (hsource : source ≠ []) (htarget : target ≠ [])
    (rest : Place) :
    (tree.move source target).find? (target ++ rest) = tree.find? (source ++ rest) := by
  have hmoved : ((tree.entries.filter fun e => source.isPrefixOf e.1).map
      fun e => (target ++ e.1.drop source.length, e.2)).lookup (target ++ rest) =
        tree.entries.lookup (source ++ rest) := by
    induction tree.entries with
    | nil => rfl
    | cons e entries ih =>
      obtain ⟨entry, found⟩ := e
      by_cases hbelow : source <+: entry
      · obtain ⟨below, rfl⟩ := hbelow
        have hkey : (target ++ rest == target ++ below) = (source ++ rest == source ++ below) := by
          rw [Bool.eq_iff_iff]
          simp
        rw [List.filter_cons_of_pos (by simp), List.map_cons, List.drop_left, List.lookup_cons,
          List.lookup_cons, ih, hkey]
      · have hother : (source ++ rest == entry) = false := by
          have hne : source ++ rest ≠ entry := by
            rintro rfl
            exact hbelow (List.prefix_append _ _)
          simpa using hne
        rw [List.filter_cons_of_neg (by simpa using hbelow), List.lookup_cons, hother]
        exact ih
  have hkept : ((tree.prune target).prune source).entries.lookup (target ++ rest) = none := by
    rw [List.lookup_eq_none_iff]
    intro e he
    have hkeep := (List.mem_filter.mp (List.mem_filter.mp he).1).2
    have hne : target ++ rest ≠ e.1 := by
      intro heq
      rw [← heq] at hkeep
      simp at hkeep
    simpa using hne
  rw [find?_of_ne (by simp [htarget]), find?_of_ne (by simp [hsource])]
  unfold move
  rw [List.lookup_append, hmoved, hkept, Option.or_none]

theorem find?_move_target {source target : Place} (hsource : source ≠ []) (htarget : target ≠ [])
    {node : Node} (h : tree.find? source = some node) :
    (tree.move source target).find? target = some node := by
  have hmoved : (tree.move source target).find? (target ++ []) = tree.find? (source ++ []) :=
    find?_move_below hsource htarget []
  rw [List.append_nil, List.append_nil, h] at hmoved
  exact hmoved

/-- Nothing is left where something has been moved from. -/
theorem find?_move_gone {source target place : Place} (hsource : source ≠ [])
    (hbelow : source <+: place) (hapart : ¬ target <+: place) :
    (tree.move source target).find? place = none := by
  have hkept := find?_prune_below hsource hbelow (tree.prune target)
  have hplace : place ≠ [] := by
    rintro rfl
    exact hsource (List.prefix_nil.mp hbelow)
  rw [find?_of_ne hplace] at hkept ⊢
  have hmoved : ((tree.entries.filter fun e => source.isPrefixOf e.1).map
      fun e => (target ++ e.1.drop source.length, e.2)).lookup place = none := by
    rw [List.lookup_eq_none_iff]
    intro e he
    obtain ⟨e', _, rfl⟩ := List.mem_map.mp he
    have hne : place ≠ target ++ e'.1.drop source.length := by
      intro heq
      exact hapart ⟨_, heq.symm⟩
    simpa using hne
  unfold move
  rw [List.lookup_append, hmoved]
  exact hkept

theorem find?_move_source {source target : Place} (hsource : source ≠ [])
    (hapart : ¬ target <+: source) : (tree.move source target).find? source = none :=
  find?_move_gone hsource (List.prefix_refl _) hapart

theorem Standing.inside (hs : tree.Standing place) (hname : IsName name)
    (hshort : byteLength name.toList ≤ longestName)
    (h : tree.find? (place ++ [name]) = some .directory) : tree.Standing (place ++ [name]) where
  below := hs.below.trans (List.prefix_append _ _)
  directories way hway := by
    rcases List.prefix_concat_iff.mp hway with rfl | habove
    · exact h
    · exact hs.directories way habove
  names other hother := by
    rcases List.mem_append.mp hother with hmem | hmem
    · exact hs.names other hmem
    · rw [List.mem_singleton.mp hmem]
      exact ⟨hname, hshort⟩

/-- A directory stands where only other places change. -/
theorem Standing.sameOutside {after : Tree} (hs : tree.Standing place)
    (h : SameOutside scratch tree after) (hapart : ¬ scratch <+: place) : after.Standing place where
  below := h.home ▸ hs.below
  directories way hway :=
    (h.places way fun hscratch => hapart (hscratch.trans hway)).trans (hs.directories way hway)
  names := hs.names

section

variable (hs : tree.Standing place) (hp : IsHomePath place name path)
include hs hp

theorem create_inside (hfree : tree.find? (place ++ [name]) = none) (node : Node) :
    tree.create path node = .ok (tree.put (place ++ [name]) node) := by
  have hslash : endsInSlash path = false := by
    rw [hp.path_eq]
    exact endsInSlash_pathOf_concat hp.isName
  simp only [create, entryOf_inside hs hp, look_inside hs hp, hfree, bind, Except.bind, hslash,
    Bool.false_eq_true, false_and, if_false]
  rfl

/-- A file that is written is made if it is not there. -/
theorem store_free (hfree : tree.find? (place ++ [name]) = none)
    (change : List UInt8 → List UInt8) :
    tree.store path change = .ok (tree.put (place ++ [name]) (.file (change []))) := by
  have hresolve := resolve_inside hs hp true (fun target hlink => by
    rw [hfree] at hlink
    cases hlink)
  have hdirectory : tree.isDirectory place = true := by
    unfold isDirectory
    rw [hs.directories place (List.prefix_refl _)]
    rfl
  simp only [store, hresolve, bind, Except.bind, hs.findFrom?_inside, hfree, List.dropLast_concat,
    hdirectory, if_true]
  rfl

theorem append_free (hfree : tree.find? (place ++ [name]) = none) (content : List UInt8) :
    tree.append path content = .ok (tree.put (place ++ [name]) (.file content)) :=
  store_free hs hp hfree fun old => old ++ content

variable {content : List UInt8} (hfile : tree.find? (place ++ [name]) = some (.file content))
include hfile

theorem resolve_file : tree.resolve true path = .ok (place ++ [name]) := by
  refine resolve_inside hs hp true ?_
  intro target hlink
  rw [hfile] at hlink
  cases hlink

theorem read_inside : tree.read path = .ok content := by
  simp only [read, resolve_file hs hp hfile, bind, Except.bind, hs.findFrom?_inside, hfile]
  rfl

theorem exists?_inside : tree.exists? path = .ok true := by
  simp only [exists?, resolve_file hs hp hfile, hs.findFrom?_inside, hfile]
  rfl

theorem rename_inside {name' path' : String} (hp' : IsHomePath place name' path')
    (hfree : tree.find? (place ++ [name']) = none) :
    tree.rename path path' = .ok (tree.move (place ++ [name]) (place ++ [name'])) := by
  have hslash : endsInSlash path = false := by
    rw [hp.path_eq]
    exact endsInSlash_pathOf_concat hp.isName
  have hslash' : endsInSlash path' = false := by
    rw [hp'.path_eq]
    exact endsInSlash_pathOf_concat hp'.isName
  have hne : place ++ [name] ≠ place ++ [name'] := by
    intro heq
    rw [heq, hfree] at hfile
    cases hfile
  simp only [rename, entryOf_inside hs hp, entryOf_inside hs hp', look_inside hs hp,
    look_inside hs hp', hfile, hfree, bind, Except.bind, hslash, hslash', Bool.false_eq_true,
    or_self, if_false, Entry.place, hne, reduceCtorEq]
  rfl

end

/-- The names in a directory are those of what there is in it. -/
theorem mem_children : name ∈ tree.children place ↔ (tree.find? (place ++ [name])).isSome := by
  rw [find?_of_ne (by simp), List.lookup_isSome_iff]
  unfold children
  rw [List.mem_filterMap]
  constructor
  · rintro ⟨e, he, hname⟩
    refine ⟨e, he, ?_⟩
    split at hname
    · next hplace =>
      obtain ⟨init, hinit⟩ := List.getLast?_eq_some_iff.mp hname
      rw [← hplace.2, hinit, List.dropLast_concat]
      simp
    · cases hname
  · rintro ⟨e, he, hplace⟩
    refine ⟨e, he, ?_⟩
    rw [← eq_of_beq hplace]
    simp

/-- A directory with something in it has a name in its listing. -/
theorem listing_ne_nil {node : Node} (h : tree.find? (place ++ [name]) = some node) :
    tree.listing place ≠ [] := by
  have hmem : name ∈ tree.listing place := List.mem_mergeSort.mpr (mem_children.mpr (by simp [h]))
  exact List.ne_nil_of_mem hmem

theorem list_of_resolve {names : List String} (hresolve : tree.resolve true path = .ok place)
    (hstands : tree.findFrom? place = some .directory) (hlisting : tree.listing place = names) :
    tree.list path = .ok names := by
  simp only [list, hresolve, bind, Except.bind, hstands, hlisting]
  rfl

end

/-- What the name of a temporary directory begins with: it is for logs, or for a sandbox. -/
def IsStem (stem : String) : Prop :=
  stem = "podLogTest" ∨ ∃ n : Nat, stem = "test" ++ ("pod-" ++ toString n)

def IsTemporary (name : String) : Prop :=
  ∃ stem n, IsStem stem ∧
    (name = stem ++ World.freshSuffix n ∨ name = stem ++ World.freshSuffix n ++ "-symlink")

/-- A home in which temporary directories can be made: nothing has their names, and the paths of
files in them are not too long. -/
structure Roomy (tree : Tree) : Prop where
  grounded : tree.Grounded
  noNul : '\x00' ∉ (pathOf tree.home).toList
  room : byteLength (pathOf tree.home).toList + 2 * (longestName + 1) ≤ longestPath
  vacant : ∀ name place, IsTemporary name → tree.home ++ [name] <+: place → tree.find? place = none

theorem Roomy.alike {before after : Tree} (hr : before.Roomy) (h : before.Alike after) :
    after.Roomy where
  grounded :=
    { directories := fun place hplace =>
        (h.places place).trans (hr.grounded.directories place (h.home ▸ hplace))
      names := h.home ▸ hr.grounded.names }
  noNul := h.home ▸ hr.noNul
  room := h.home ▸ hr.room
  vacant name place hname hplace :=
    (h.places place).trans (hr.vacant name place hname (h.home ▸ hplace))

structure IsShortName (name : String) : Prop extends IsName name where
  short : byteLength name.toList ≤ longestName
  noNul : '\x00' ∉ name.toList

theorem byteLength_pathOf_concat (place : Place) (name : String) :
    byteLength (pathOf (place ++ [name])).toList ≤
      byteLength (pathOf place).toList + 1 + byteLength name.toList := by
  have hslash : byteLength "/".toList = 1 := by decide
  rw [pathOf_concat]
  split
  · rw [String.toList_append, byteLength_append, hslash]
    omega
  · simp only [String.toList_append, byteLength_append, hslash]
    omega

theorem noNul_pathOf_concat {place : Place} {name : String}
    (hplace : '\x00' ∉ (pathOf place).toList) (hname : '\x00' ∉ name.toList) :
    '\x00' ∉ (pathOf (place ++ [name])).toList := by
  rw [pathOf_concat]
  split
  · simpa [String.toList_append] using hname
  · simp [String.toList_append, hplace, hname]

theorem isHomePath_of_room {place : Place} {name : String} (hname : IsShortName name)
    (hnul : '\x00' ∉ (pathOf place).toList)
    (hroom : byteLength (pathOf place).toList + (longestName + 1) ≤ longestPath) :
    IsHomePath place name (pathOf (place ++ [name])) where
  isName := hname.toIsName
  short := hname.short
  path_eq := rfl
  noNul := noNul_pathOf_concat hnul hname.noNul
  fits := by
    have hlength := byteLength_pathOf_concat place name
    have hshort := hname.short
    omega

section

variable {tree : Tree} (hr : tree.Roomy) {name : String} (hname : IsShortName name)
include hr hname

theorem Roomy.isHomePath :
    IsHomePath tree.home name (pathOf (tree.home ++ [name])) := by
  refine isHomePath_of_room hname hr.noNul ?_
  have hroom := hr.room
  omega

/-- A file in a temporary directory. -/
theorem Roomy.isFilePath {file : String} (hfile : IsShortName file) :
    IsHomePath (tree.home ++ [name]) file (pathOf (tree.home ++ [name] ++ [file])) := by
  have hpath := hr.isHomePath hname
  have hroom := hr.room
  have hlength := byteLength_pathOf_concat tree.home name
  have hshort := hname.short
  exact isHomePath_of_room hfile hpath.noNul (by omega)

end

/-- A temporary directory stands for a while, and all else is as it was. -/
structure Scratch (tree : Tree) (name : String) (now : Tree) : Prop where
  same : SameOutside (tree.home ++ [name]) tree now
  stands : now.Standing (tree.home ++ [name])

theorem not_prefix_concat {place : Place} {name : String} : ¬ place ++ [name] <+: place := by
  intro h
  have hlength := h.length_le
  rw [List.length_append, List.length_singleton] at hlength
  omega

section

variable {tree : Tree} (hr : tree.Roomy) {name : String} (hname : IsShortName name)
  (htemporary : IsTemporary name)
include hr hname htemporary

theorem makeDirectory_roomy : tree.makeDirectory (pathOf (tree.home ++ [name])) =
    .ok (tree.put (tree.home ++ [name]) .directory) :=
  create_inside hr.grounded.standing (hr.isHomePath hname)
    (hr.vacant name _ htemporary (List.prefix_refl _)) .directory

omit htemporary in
theorem scratch_put : tree.Scratch name (tree.put (tree.home ++ [name]) .directory) where
  same := sameOutside_put (List.prefix_refl _) (List.concat_ne_nil _ _) .directory
  stands := by
    have hhome : (tree.put (tree.home ++ [name]) .directory).Standing tree.home :=
      hr.grounded.standing.sameOutside
        (sameOutside_put (List.prefix_refl _) (List.concat_ne_nil _ _) _) not_prefix_concat
    refine hhome.inside hname.toIsName hname.short ?_
    exact (find?_put tree (List.concat_ne_nil _ _) _ _).trans (if_pos rfl)

end

namespace Scratch

variable {tree now after : Tree} {name : String}

/-- What changes below the directory leaves it standing. -/
theorem within (h : tree.Scratch name now) {inner : Place}
    (hinner : tree.home ++ [name] <+: inner) (hne : inner ≠ tree.home ++ [name])
    (hsame : SameOutside inner now after) : tree.Scratch name after where
  same := by
    refine h.same.trans ⟨hsame.home, fun place hplace => hsame.places place ?_⟩
    exact fun hbelow => hplace (hinner.trans hbelow)
  stands := h.stands.sameOutside hsame fun hbelow =>
    hne (hbelow.eq_of_length_le hinner.length_le)

theorem put (h : tree.Scratch name now) (file : String) (node : Node) :
    tree.Scratch name (now.put (tree.home ++ [name] ++ [file]) node) :=
  h.within (List.prefix_append _ _) (by simp)
    (sameOutside_put (List.prefix_refl _) (List.concat_ne_nil _ _) node)

theorem move (h : tree.Scratch name now) (file file' : String) :
    tree.Scratch name
      (now.move (tree.home ++ [name] ++ [file]) (tree.home ++ [name] ++ [file'])) where
  same := h.same.trans (sameOutside_move (List.prefix_append _ _) (List.prefix_append _ _))
  stands := by
    refine ⟨h.stands.below, ?_, h.stands.names⟩
    intro way hway
    have habove (other : String) : ¬ tree.home ++ [name] ++ [other] <+: way := fun hbelow =>
      not_prefix_concat (hbelow.trans hway)
    exact (find?_move (habove file) (habove file') now).trans (h.stands.directories way hway)

theorem alike (h : tree.Scratch name now) (hafter : now.Alike after) : tree.Scratch name after where
  same := h.same.trans (hafter.sameOutside _)
  stands :=
    ⟨hafter.home ▸ h.stands.below,
      fun way hway => (hafter.places way).trans (h.stands.directories way hway), h.stands.names⟩

theorem grounded (h : tree.Scratch name now) : now.Grounded where
  directories place hplace :=
    h.stands.directories place (hplace.trans h.stands.below)
  names other hother := h.stands.names other (h.stands.below.subset hother)

/-- Once the directory is removed it is as if it had never been. -/
theorem removeAll (h : tree.Scratch name now) (hr : tree.Roomy) (hname : IsShortName name)
    (htemporary : IsTemporary name) :
    ∃ after, now.removeAll (pathOf (tree.home ++ [name])) = .ok after ∧ tree.Alike after := by
  have hpath := hr.isHomePath hname
  rw [← h.same.home] at hpath
  have hstands := h.stands.directories _ (List.prefix_refl _)
  rw [← h.same.home] at hstands
  refine ⟨now.prune (tree.home ++ [name]), ?_, ?_⟩
  · have hremove := removeAll_homePath h.grounded hpath hstands
    rw [h.same.home] at hremove
    exact hremove
  · exact alike_prune (List.concat_ne_nil _ _) (fun place => hr.vacant name place htemporary) h.same

theorem list (h : tree.Scratch name now) (hr : tree.Roomy) (hname : IsShortName name) :
    now.list (pathOf (tree.home ++ [name])) = .ok (now.listing (tree.home ++ [name])) := by
  have hstands := h.stands.directories _ (List.prefix_refl _)
  have hhome : now.Standing tree.home := h.same.home ▸ h.grounded.standing
  refine list_of_resolve (resolve_inside hhome (hr.isHomePath hname) true ?_) h.stands.findFrom? rfl
  intro target hlink
  rw [hstands] at hlink
  cases hlink

section

variable (h : tree.Scratch name now) (hr : tree.Roomy) (hname : IsShortName name)
  {link : String} (hlink : IsShortName link) (hne : link ≠ name) (htemporary : IsTemporary link)
include h hr hne htemporary

/-- Beside the directory nothing is in the way. -/
theorem vacant_beside {place : Place} (hplace : tree.home ++ [link] <+: place) :
    now.find? place = none := by
  refine (h.same.places place ?_).trans (hr.vacant link place htemporary hplace)
  intro hscratch
  have heq := List.prefix_of_prefix_length_le hplace hscratch (by simp)
  have hlast := heq.eq_of_length (by simp)
  exact hne (List.head_eq_of_cons_eq (List.append_cancel_left hlast))

include hname hlink

/-- A link beside the directory that leads to it. -/
theorem makeLink : now.makeLink (pathOf (tree.home ++ [link])) (pathOf (tree.home ++ [name])) =
    .ok (now.put (tree.home ++ [link]) (.link (pathOf (tree.home ++ [name])))) := by
  have hhome : now.Standing tree.home := h.same.home ▸ h.grounded.standing
  have htarget := hr.isHomePath hname
  have hsome : pathOf (tree.home ++ [name]) ≠ "" := by
    intro heq
    have htext := toList_pathOf (tree.home ++ [name])
    rw [heq] at htext
    cases htext
  unfold Tree.makeLink
  rw [if_neg htarget.noNul, if_neg hsome, if_neg (Nat.not_lt.mpr htarget.fits)]
  exact create_inside hhome (hr.isHomePath hlink)
    (h.vacant_beside hr hne htemporary (List.prefix_refl _)) _

omit htemporary in
/-- What the directory lists is listed through the link. -/
theorem list_link {linked : Tree}
    (hlinked : linked = now.put (tree.home ++ [link]) (.link (pathOf (tree.home ++ [name])))) :
    linked.list (pathOf (tree.home ++ [link])) = .ok (linked.listing (tree.home ++ [name])) := by
  have hother : ¬ tree.home ++ [link] <+: tree.home ++ [name] := by
    intro hbelow
    have heq := hbelow.eq_of_length (by simp)
    exact hne (List.head_eq_of_cons_eq (List.append_cancel_left heq))
  have hstands : linked.Standing (tree.home ++ [name]) := by
    refine h.stands.sameOutside ?_ hother
    rw [hlinked]
    exact sameOutside_put (List.prefix_refl _) (List.concat_ne_nil _ _) _
  have hgrounded : linked.Grounded := by
    rw [hlinked, ← h.same.home]
    exact grounded_put h.grounded _
  have hsame : linked.home = tree.home := by
    rw [hlinked]
    exact h.same.home
  have hfound : linked.find? (linked.home ++ [link]) =
      some (.link (pathOf (tree.home ++ [name]))) := by
    rw [hsame, hlinked]
    exact (find?_put now (List.concat_ne_nil _ _) _ _).trans (if_pos rfl)
  have hpath : IsHomePath linked.home link (pathOf (tree.home ++ [link])) :=
    hsame ▸ hr.isHomePath hlink
  have hresolve : linked.resolve true (pathOf (tree.home ++ [link])) =
      .ok (tree.home ++ [name]) := by
    rw [resolve_homeLink hgrounded hpath hfound,
      walkOf_pathOf_concat (fun other hother => (hr.grounded.names other hother).1) hname.toIsName,
      if_pos rfl, walk, descend_standing hstands]
    rfl
  exact list_of_resolve hresolve hstands.findFrom? rfl

omit hname in
theorem removeLink (target : String) : ∃ after,
    (now.put (tree.home ++ [link]) (.link target)).removeFile (pathOf (tree.home ++ [link])) =
      .ok after ∧ now.Alike after := by
  have hsame : SameOutside (tree.home ++ [link]) now
      (now.put (tree.home ++ [link]) (.link target)) :=
    sameOutside_put (List.prefix_refl _) (List.concat_ne_nil _ _) _
  have hhome : (now.put (tree.home ++ [link]) (.link target)).Standing tree.home := by
    have hnow : now.Standing tree.home := h.same.home ▸ h.grounded.standing
    exact hnow.sameOutside hsame not_prefix_concat
  have hpath := hr.isHomePath hlink
  have hslash : endsInSlash (pathOf (tree.home ++ [link])) = false :=
    endsInSlash_pathOf_concat hlink.toIsName
  have hfound : (now.put (tree.home ++ [link]) (.link target)).find? (tree.home ++ [link]) =
      some (.link target) := (find?_put now (List.concat_ne_nil _ _) _ _).trans (if_pos rfl)
  refine ⟨_, ?_, alike_prune (List.concat_ne_nil _ _)
    (fun place => h.vacant_beside hr hne htemporary) hsame⟩
  simp only [removeFile, entryOf_inside hhome hpath, look_inside hhome hpath, hfound, bind,
    Except.bind, hslash, Bool.false_eq_true, if_false]
  rfl

end

end Scratch

end ContainerCheck.Host.Tree
