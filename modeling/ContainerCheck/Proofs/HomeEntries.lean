import ContainerCheck.Proofs.SoundTrees

namespace ContainerCheck.Host

open ContainerCheck.Text

def Node.bare : Node → Node
  | .file _ => .file []
  | node => node

theorem Node.eq_of_bare {node other : Node} (h : other.bare = node.bare)
    (hnode : ∀ content, node ≠ .file content) : other = node := by
  cases node with
  | file content => exact absurd rfl (hnode content)
  | directory =>
    cases other with
    | file content => cases h
    | directory => rfl
    | link target => cases h
  | link target =>
    cases other with
    | file content => cases h
    | directory => cases h
    | link target' => exact h

namespace Tree

/-- The home has the same entries of the same kinds. A file may have another content. -/
structure SameEntries (before after : Tree) : Prop where
  home : after.home = before.home
  entries : ∀ name, (after.find? (before.home ++ [name])).map Node.bare =
    (before.find? (before.home ++ [name])).map Node.bare

theorem SameEntries.refl (tree : Tree) : tree.SameEntries tree := ⟨rfl, fun _ => rfl⟩

theorem SameEntries.trans {a b c : Tree} (hab : a.SameEntries b) (hbc : b.SameEntries c) :
    a.SameEntries c where
  home := hbc.home.trans hab.home
  entries name := by
    have hentries := hbc.entries name
    rw [hab.home] at hentries
    exact hentries.trans (hab.entries name)

/-- The same names are in the home. -/
theorem SameEntries.mem_children {before after : Tree} (h : before.SameEntries after)
    (name : String) : name ∈ after.children after.home ↔ name ∈ before.children before.home := by
  have hentries := congrArg Option.isSome (h.entries name)
  rw [Option.isSome_map, Option.isSome_map] at hentries
  rw [Tree.mem_children, Tree.mem_children, h.home, hentries]

/-- What has not been a file in the home is as it was. -/
theorem SameEntries.find? {before after : Tree} (h : before.SameEntries after) {name : String}
    {node : Node} (hfind : before.find? (before.home ++ [name]) = some node)
    (hnode : ∀ content, node ≠ .file content) :
    after.find? (before.home ++ [name]) = some node := by
  have hentries := h.entries name
  rw [hfind, Option.map_some, Option.map_eq_some_iff] at hentries
  obtain ⟨other, hother, hbare⟩ := hentries
  rw [hother, Node.eq_of_bare hbare hnode]

/-- Wherever a path leads by a part of the tree before, it leads by something of that part that is
still there after. -/
def KeepsWay (path : String) (before after : Tree) : Prop :=
  ∀ part entry, part.Within before → part.entryOf .alreadyExists path = .ok entry →
    ∃ left : Tree, left.Within part ∧ left.Within after ∧
      left.entryOf .alreadyExists path = .ok entry

theorem KeepsWay.refl (path : String) (tree : Tree) : KeepsWay path tree tree :=
  fun part _ hpart hentry => ⟨part, .refl part, hpart, hentry⟩

theorem KeepsWay.trans {path : String} {a b c : Tree} (hab : KeepsWay path a b)
    (hbc : KeepsWay path b c) : KeepsWay path a c := by
  intro part entry hpart hentry
  obtain ⟨left, hleft, hb, hentry'⟩ := hab part entry hpart hentry
  obtain ⟨left', hleft', hc, hentry''⟩ := hbc left entry hb hentry'
  exact ⟨left', hleft'.trans hleft, hc, hentry''⟩

/-- The path of a name in the home. It may lead elsewhere if there is a slash in the name. -/
def homePath (tree : Tree) (name : String) : String := joinPath (pathOf tree.home) name

/-- A sound tree whose home has the same entries, and in which the ways to some names are open that
have been so before. -/
structure SameHome (names : String → Prop) (before after : Tree) : Prop
    extends before.SameEntries after where
  sound : after.Sound
  ways : ∀ name, names name → KeepsWay (before.homePath name) before after

section

variable {names : String → Prop} {before after : Tree}

theorem SameHome.refl (hs : before.Sound) : before.SameHome names before :=
  ⟨.refl before, hs, fun _ _ => .refl _ before⟩

theorem SameHome.homePath (h : before.SameHome names after) (name : String) :
    after.homePath name = before.homePath name := by
  unfold Tree.homePath
  rw [h.home]

theorem SameHome.trans {c : Tree} (hab : before.SameHome names after)
    (hbc : after.SameHome names c) : before.SameHome names c where
  toSameEntries := hab.toSameEntries.trans hbc.toSameEntries
  sound := hbc.sound
  ways name hname := by
    have hway := hbc.ways name hname
    rw [hab.homePath] at hway
    exact (hab.ways name hname).trans hway

theorem SameHome.mono {names' : String → Prop} (h : before.SameHome names after)
    (hnames : ∀ name, names' name → names name) : before.SameHome names' after :=
  ⟨h.toSameEntries, h.sound, fun name hname => h.ways name (hnames name hname)⟩

end

theorem Entry.place_ne_nil (entry : Entry) : entry.place ≠ [] := List.concat_ne_nil _ _

structure Free (tree : Tree) (entry : Entry) : Prop where
  directory : tree.find? entry.directory = some .directory
  short : byteLength entry.name.toList ≤ longestName
  vacant : tree.find? entry.place = none

section

variable {tree : Tree} {path : String} {entry : Entry} {unnamed : IoFault}

theorem entryOf_unnamed (unnamed' : IoFault) (h : tree.entryOf unnamed path = .ok entry) :
    tree.entryOf unnamed' path = .ok entry := by
  unfold entryOf at h ⊢
  obtain ⟨directory, hdirectory, hlast⟩ := bind_eq_ok_iff.mp h
  refine bind_eq_ok_iff.mpr ⟨directory, hdirectory, ?_⟩
  split at hlast
  · cases hlast
  · next heq =>
    split at hlast
    · cases hlast
    · next hdots =>
      simp only [if_neg hdots]
      exact hlast

theorem create_eq_ok {node : Node} {tree' : Tree} (h : tree.create path node = .ok tree') :
    ∃ entry, tree.entryOf .alreadyExists path = .ok entry ∧ tree.Free entry ∧
      tree' = tree.put entry.place node := by
  obtain ⟨entry, hentry, hrest⟩ := bind_eq_ok_iff.mp h
  obtain ⟨found, hlook, hput⟩ := bind_eq_ok_iff.mp hrest
  obtain ⟨hdirectory, hshort, rfl⟩ := look_eq_ok hlook
  cases hvacant : tree.find? entry.place with
  | some node =>
    rw [hvacant] at hput
    cases hput
  | none =>
    rw [hvacant] at hput
    dsimp only at hput
    split at hput
    · cases hput
    · cases hput
      exact ⟨entry, hentry, ⟨eq_of_beq hdirectory, hshort, hvacant⟩, rfl⟩

/-- A path without a slash behind it leads to the directory of its entry, and on by its last name. -/
theorem resolve_last (hslash : endsInSlash path = false)
    (hentry : tree.entryOf unnamed path = .ok entry) : ∃ left, ∀ follow,
      tree.resolve follow path = tree.walk follow left entry.directory [entry.name] := by
  obtain ⟨init, hnames, hwalk, -, -⟩ := entryOf_eq_ok hentry
  obtain ⟨-, left, hgoes⟩ := walkFrom_goesOn hwalk (List.cons_ne_nil entry.name [])
  have hwalkOf : (walkOf path).names = init ++ [entry.name] := by
    unfold walkOf
    rw [hnames, hslash]
    rfl
  refine ⟨left, fun follow => ?_⟩
  unfold resolve
  rw [hwalkOf, hgoes]

section

variable (hentry : tree.entryOf unnamed path = .ok entry)
  (hshort : byteLength entry.name.toList ≤ longestName)
include hentry hshort

/-- The last step to an entry arrives, unless a link there is followed. -/
theorem descend_entry (follow : Bool) : tree.descend follow entry.directory [entry.name] =
    match tree.find? entry.place with
    | some (.link target) =>
      if follow then .ok (.atLink entry.directory target []) else .ok (.arrived entry.place)
    | _ => .ok (.arrived entry.place) := by
  obtain ⟨init, -, hwalk, hnoDot, hnoDots⟩ := entryOf_eq_ok hentry
  obtain ⟨hfind, -⟩ := walkFrom_goesOn hwalk (List.cons_ne_nil entry.name [])
  rw [descend_cons hfind, if_neg hnoDot, if_neg hnoDots, if_neg (Nat.not_lt.mpr hshort)]
  unfold Entry.place
  cases tree.find? (entry.directory ++ [entry.name]) with
  | none => rfl
  | some node =>
    cases node with
    | file content => rfl
    | directory => rfl
    | link target => cases follow <;> rfl

variable (hslash : endsInSlash path = false)
include hslash

theorem resolve_entry {follow : Bool}
    (hend : follow = false ∨ ∀ target, tree.find? entry.place ≠ some (.link target)) :
    tree.resolve follow path = .ok entry.place := by
  obtain ⟨left, hresolve⟩ := resolve_last hslash hentry
  have hdescend := descend_entry hentry hshort follow
  rw [hresolve]
  refine walk_of_arrived (hdescend.trans ?_)
  split
  · next target hlink =>
    rcases hend with rfl | hnone
    · rfl
    · exact absurd hlink (hnone target)
  · rfl

/-- A path to a link leads where the link does, if there are not too many links on the way. -/
theorem resolve_link {target : String} (hlink : tree.find? entry.place = some (.link target)) :
    tree.resolve true path = .error .tooManyLinks ∨ ∃ left, tree.resolve true path =
      tree.walk true left (if isAbsolute target then [] else entry.directory)
        (walkOf target).names := by
  obtain ⟨left, hresolve⟩ := resolve_last hslash hentry
  have hdescend : tree.descend true entry.directory [entry.name] =
      .ok (.atLink entry.directory target []) := by
    rw [descend_entry hentry hshort, hlink]
    rfl
  rw [hresolve, walk, hdescend]
  cases left with
  | zero => exact .inl rfl
  | succ left =>
    right
    refine ⟨left, ?_⟩
    dsimp only
    rw [List.append_nil]
    rfl

end

/-- What a path leads to is removed, unless it is no directory. -/
theorem removeAll_entry (hslash : endsInSlash path = false)
    (hentry : tree.entryOf unnamed path = .ok entry)
    (hshort : byteLength entry.name.toList ≤ longestName) :
    tree.removeAll path = .ok (tree.prune entry.place) ∨
      (∃ fault, tree.removeAll path = .error fault) ∧
        tree.find? entry.place ≠ some .directory := by
  have hresolve := resolve_entry hentry hshort hslash (.inl rfl)
  simp only [removeAll, hresolve, bind, Except.bind]
  cases tree.find? entry.place with
  | none => exact .inr ⟨⟨_, rfl⟩, by simp⟩
  | some node =>
    cases node with
    | file content => exact .inr ⟨⟨_, rfl⟩, by simp⟩
    | directory => exact .inl rfl
    | link target => exact .inl rfl

/-- What a path leads to is removed, unless it is no link. -/
theorem removeFile_entry (hslash : endsInSlash path = false)
    (hentry : tree.entryOf unnamed path = .ok entry)
    (hshort : byteLength entry.name.toList ≤ longestName) (hg : tree.Grounded) :
    tree.removeFile path = .ok (tree.prune entry.place) ∨
      (∃ fault, tree.removeFile path = .error fault) ∧
        ∀ target, tree.find? entry.place ≠ some (.link target) := by
  obtain ⟨init, -, hwalk, -, -⟩ := entryOf_eq_ok hentry
  have hdirectory : tree.isDirectory entry.directory = true := by
    obtain ⟨hfind, -⟩ := walkFrom_goesOn hwalk (List.cons_ne_nil "." [])
    unfold isDirectory
    rw [hg.find?_of_findFrom? hfind]
    rfl
  have hlook : tree.look entry = .ok (tree.find? entry.place) := by
    unfold look
    simp only [hdirectory, not_true_eq_false, if_false, if_neg (Nat.not_lt.mpr hshort)]
  simp only [removeFile, entryOf_unnamed _ hentry, hlook, hslash, bind, Except.bind,
    Bool.false_eq_true, if_false]
  cases tree.find? entry.place with
  | none => exact .inr ⟨⟨_, rfl⟩, by simp⟩
  | some node =>
    cases node with
    | file content => exact .inl rfl
    | directory => exact .inr ⟨⟨_, rfl⟩, by simp⟩
    | link target => exact .inl rfl

end

/-- Something that has been put at the free entry of a path, and maybe more below it. -/
structure Arrival (before : Tree) (path : String) (entry : Entry) (node : Node) (first : Tree) :
    Prop where
  free : before.Free entry
  same : SameOutside entry.place before first
  sound : first.Sound
  arrived : first.find? entry.place = some node
  leads : first.entryOf .alreadyExists path = .ok entry

section

variable {names : String → Prop} {before first now last : Tree} {path : String} {entry : Entry}
  {node : Node} (hs : before.Sound)
include hs

theorem Free.not_prefix_home (h : before.Free entry) : ¬ entry.place <+: before.home :=
  hs.not_prefix_home (by simp [h.vacant])

/-- Whatever is put at a free entry or below it, all that there was stays. -/
theorem Free.within (h : before.Free entry) (hsame : SameOutside entry.place before first) :
    before.Within first where
  home := hsame.home
  places place found hfind := by
    refine (hsame.places place fun hbelow => ?_).trans hfind
    rw [hs.rooted.vacant_below h.vacant hbelow] at hfind
    cases hfind

/-- Nothing is below what has been put at a free entry. -/
theorem Free.find?_put (h : before.Free entry) (node : Node) (rest : Place) :
    (before.put entry.place node).find? (entry.place ++ rest) =
      if rest = [] then some node else none := by
  rw [Tree.find?_put before entry.place_ne_nil]
  by_cases hrest : rest = []
  · rw [if_pos (by simp [hrest]), if_pos hrest]
  · rw [if_neg (by simp [hrest]), if_neg hrest]
    exact hs.rooted.vacant_below h.vacant (List.prefix_append _ rest)

theorem Free.arrival (h : before.Free entry)
    (hentry : before.entryOf .alreadyExists path = .ok entry) (node : Node) :
    before.Arrival path entry node (before.put entry.place node) := by
  have hsame : SameOutside entry.place before (before.put entry.place node) :=
    sameOutside_put (List.prefix_refl _) entry.place_ne_nil node
  have hvacant : before.find? entry.place ≠ some .directory := by simp [h.vacant]
  refine ⟨h, hsame, ?_, ?_, (h.within hs hsame).entryOf hentry⟩
  · exact hs.put h.directory hvacant node
  · exact (Tree.find?_put before entry.place_ne_nil node _).trans (if_pos rfl)

theorem arrival_of_create (h : before.create path node = .ok first) :
    ∃ entry, before.Arrival path entry node first ∧
      ∀ name, first.find? (entry.place ++ [name]) = none := by
  obtain ⟨entry, hentry, hfree, rfl⟩ := create_eq_ok h
  refine ⟨entry, hfree.arrival hs hentry node, fun name => ?_⟩
  exact (hfree.find?_put hs node [name]).trans (if_neg (List.cons_ne_nil name []))

section

variable (h : before.Arrival path entry node first) (hnow : first.SameHome names now)
  (hkeeps : ∀ place, ¬ entry.place <+: place → last.find? place = now.find? place)
include h hkeeps

/-- What was there before and is there now stays: nothing of it is below the entry. -/
theorem Arrival.within_last {left : Tree} (hbefore : left.Within before) (hleft : left.Within now)
    (hhome : last.home = now.home) : left.Within last where
  home := hhome.trans hleft.home
  places place found hfind := by
    have hbelow : ¬ entry.place <+: place := by
      intro hbelow
      have hthere := hbefore.places place found hfind
      rw [hs.rooted.vacant_below h.free.vacant hbelow] at hthere
      cases hthere
    rw [hkeeps place hbelow]
    exact hleft.places place found hfind

include hnow

/-- An entry of the home is as before, the one that has been put there among them if it is gone. -/
theorem Arrival.entries_last (hgone : last.find? entry.place = none ∨
      now.find? entry.place ≠ some node) (hnode : ∀ content, node ≠ .file content)
    (name : String) : (last.find? (before.home ++ [name])).map Node.bare =
      (before.find? (before.home ++ [name])).map Node.bare := by
  by_cases heq : before.home ++ [name] = entry.place
  · have hthere : now.find? entry.place = some node := by
      have harrived := h.arrived
      rw [← heq, ← h.same.home] at harrived ⊢
      exact hnow.find? harrived hnode
    rw [heq, hgone.resolve_right (not_not_intro hthere), h.free.vacant]
  · have hbelow : ¬ entry.place <+: before.home ++ [name] := by
      intro hbelow
      rcases List.prefix_concat_iff.mp hbelow with hplace | habove
      · exact heq hplace.symm
      · exact h.free.not_prefix_home hs habove
    have hentries := hnow.entries name
    rw [h.same.home] at hentries
    rw [hkeeps _ hbelow, hentries, h.same.places _ hbelow]

end

/-- Once it has been removed, the home is as before. It can only fail to be removed where something
else than a directory or a link has taken its place, and so not in the home. -/
theorem Arrival.gone (h : before.Arrival path entry node first) (hnow : first.SameHome names now)
    (hnode : ∀ content, node ≠ .file content)
    (hlast : last = now.prune entry.place ∨ last = now ∧ now.find? entry.place ≠ some node) :
    before.SameHome names last := by
  have hhome : now.home = before.home := hnow.home.trans h.same.home
  have hnot : ¬ entry.place <+: now.home := hhome ▸ h.free.not_prefix_home hs
  have hlastHome : last.home = now.home := by
    rcases hlast with rfl | ⟨rfl, -⟩
    · rfl
    · rfl
  have hsound : last.Sound := by
    rcases hlast with rfl | ⟨rfl, -⟩
    · exact hnow.sound.prune hnot
    · exact hnow.sound
  have hkeeps : ∀ place, ¬ entry.place <+: place → last.find? place = now.find? place := by
    intro place hplace
    rcases hlast with rfl | ⟨rfl, -⟩
    · exact find?_prune hplace now
    · rfl
  have hgone : last.find? entry.place = none ∨ now.find? entry.place ≠ some node := by
    rcases hlast with rfl | ⟨-, hother⟩
    · exact .inl (find?_prune_self entry.place_ne_nil now)
    · exact .inr hother
  refine ⟨⟨hlastHome.trans hhome, h.entries_last hs hnow hkeeps hgone hnode⟩, hsound, ?_⟩
  intro name hname part found hpart hfound
  have hway := hnow.ways name hname part found (hpart.trans (h.free.within hs h.same))
  rw [Tree.homePath, h.same.home] at hway
  obtain ⟨left, hleft, hleftNow, hentry⟩ := hway hfound
  exact ⟨left, hleft, h.within_last hs hkeeps (hleft.trans hpart) hleftNow hlastHome, hentry⟩

end

/-- The path of a name leads to the same entry as before. -/
theorem SameHome.leads {names : String → Prop} {before after : Tree} {name : String} {entry : Entry}
    (h : before.SameHome names after) (hg : before.Grounded) (hname : IsName name ∨ names name)
    (hentry : before.entryOf .alreadyExists (before.homePath name) = .ok entry)
    (hshort : byteLength entry.name.toList ≤ longestName) :
    after.entryOf .alreadyExists (before.homePath name) = .ok entry := by
  rcases hname with hplain | hname
  · rw [Tree.homePath, joinPath_pathOf hg.isName hplain] at hentry ⊢
    obtain ⟨hpath, rfl⟩ := isHomePath_of_entryOf hg.standing hplain hentry hshort
    rw [← h.home] at hpath ⊢
    exact entryOf_homePath h.sound.toGrounded hpath _
  · obtain ⟨left, -, hleft, hentry'⟩ := h.ways name hname before entry (.refl before) hentry
    exact hleft.entryOf hentry'

section

variable {before first tree' : Tree} {path file : String} {entry : Entry} {content : List UInt8}

/-- A path into a directory, by what leads to the directory. -/
theorem resolve_below {unnamed : IoFault} {place : Place}
    (hentry : first.entryOf unnamed path = .ok entry)
    (hslash : endsInSlash path = false) (hshort : byteLength entry.name.toList ≤ longestName)
    (hdirectory : first.find? entry.place = some .directory) (hfile : IsShortName file)
    (hvacant : first.find? (entry.place ++ [file]) = none)
    (hok : first.resolve true (joinPath path file) = .ok place) :
    place = entry.place ++ [file] := by
  obtain ⟨init, hnames, hwalk, hnoDot, hnoDots⟩ := entryOf_eq_ok hentry
  obtain ⟨-, hpath, -, hstart⟩ := walkFrom_eq_ok_iff.mp hwalk
  obtain ⟨hfind, left, hgoes⟩ := walk_goesOn hstart (List.cons_ne_nil entry.name [file])
  have hjoin := joinPath_name hpath hslash hfile.toIsName
  have hwalkOf : walkOf (joinPath path file) = ⟨isAbsolute path, init ++ [entry.name, file]⟩ := by
    unfold walkOf
    rw [hjoin, namesOf_slash path hfile.toIsName, hnames, endsInSlash_append hfile.toIsName,
      String.append_assoc, isAbsolute_append hpath]
    simp
  -- From the directory above, two names lead to the file.
  have hdescend : first.descend true entry.directory [entry.name, file] =
      .ok (.arrived (entry.place ++ [file])) := by
    have hthere : first.findFrom? entry.place = some .directory := by
      unfold findFrom?
      rw [hdirectory, ite_self]
    rw [descend_cons hfind, if_neg hnoDot, if_neg hnoDots, if_neg (Nat.not_lt.mpr hshort)]
    unfold Entry.place at hdirectory hthere hvacant ⊢
    rw [hdirectory]
    dsimp only
    rw [descend_cons hthere, if_neg hfile.noDot, if_neg hfile.noDots,
      if_neg (Nat.not_lt.mpr hfile.short), hvacant]
    rfl
  obtain ⟨-, -, -, hplace⟩ := walkFrom_eq_ok_iff.mp hok
  rw [hwalkOf, hjoin, String.append_assoc, isAbsolute_append hpath, hgoes,
    walk_of_arrived hdescend] at hplace
  exact (Except.ok.inj hplace).symm

/-- What is written to a free name in a directory is put there. -/
theorem put_of_write {unnamed : IoFault} (hs : first.Sound)
    (hentry : first.entryOf unnamed path = .ok entry) (hslash : endsInSlash path = false)
    (hshort : byteLength entry.name.toList ≤ longestName)
    (hdirectory : first.find? entry.place = some .directory) (hfile : IsShortName file)
    (hvacant : first.find? (entry.place ++ [file]) = none)
    (hwrite : first.write (joinPath path file) content = .ok tree') :
    tree' = first.put (entry.place ++ [file]) (.file content) := by
  obtain ⟨place, hresolve, hput⟩ := bind_eq_ok_iff.mp hwrite
  obtain rfl := resolve_below hentry hslash hshort hdirectory hfile hvacant hresolve
  have hinside : first.isDirectory (entry.place ++ [file]).dropLast = true := by
    rw [List.dropLast_concat]
    unfold isDirectory
    rw [hdirectory]
    rfl
  -- The home is looked up apart from all else, but it is there already.
  have hhome : entry.place ++ [file] ≠ first.home := by
    intro heq
    have hthere := hs.directories first.home (List.prefix_refl _)
    rw [← heq, hvacant] at hthere
    cases hthere
  have hnone : first.findFrom? (entry.place ++ [file]) = none := (if_neg hhome).trans hvacant
  simp only [hnone, hinside, if_true] at hput
  cases hput
  rfl

/-- A file that is written into a directory that has come goes with it. -/
theorem Arrival.write (h : before.Arrival path entry .directory first)
    (hslash : endsInSlash path = false) (hfile : IsShortName file)
    (hvacant : first.find? (entry.place ++ [file]) = none)
    (hwrite : first.write (joinPath path file) content = .ok tree') :
    before.Arrival path entry .directory tree' := by
  obtain rfl := put_of_write h.sound h.leads hslash h.free.short h.arrived hfile hvacant hwrite
  have hfree : first.Free ⟨entry.place, file⟩ := ⟨h.arrived, hfile.short, hvacant⟩
  have hinside : entry.place <+: entry.place ++ [file] := List.prefix_append _ _
  have hsame : SameOutside (entry.place ++ [file]) first
      (first.put (entry.place ++ [file]) (.file content)) :=
    sameOutside_put (List.prefix_refl _) (List.concat_ne_nil _ _) _
  refine ⟨h.free, h.same.trans ⟨hsame.home, fun place hplace => hsame.places place ?_⟩, ?_, ?_,
    (hfree.within h.sound hsame).entryOf h.leads⟩
  · exact fun hbelow => hplace (hinside.trans hbelow)
  · exact h.sound.put h.arrived (by simp [hvacant]) _
  · exact (hsame.places _ not_prefix_concat).trans h.arrived

end

/-- What has been read in a directory of the home is renamed there without harm to the home. -/
theorem sameHome_rename {tree tree' : Tree} (hs : tree.Sound) {directory old new : String}
    (hdirectory : tree.find? (tree.home ++ [directory]) = some .directory)
    (hname : IsName directory) (hshort : byteLength directory.toList ≤ longestName)
    (hold : IsName old) (hnew : IsName new) {content : List UInt8}
    (hread : tree.read (pathOf (tree.home ++ [directory] ++ [old])) = .ok content)
    (h : tree.rename (pathOf (tree.home ++ [directory] ++ [old]))
      (pathOf (tree.home ++ [directory] ++ [new])) = .ok tree') :
    tree.SameHome (fun _ => False) tree' := by
  have hstands : tree.Standing (tree.home ++ [directory]) :=
    hs.standing.inside hname hshort hdirectory
  obtain ⟨source, target, hsource, htarget, hlook, hfile, hmoved⟩ := rename_eq_ok hread h
  rcases hmoved with rfl | ⟨hlook', hfree, rfl⟩
  · exact .refl hs
  · obtain ⟨-, hshort', -⟩ := look_eq_ok hlook
    obtain ⟨-, hshort'', -⟩ := look_eq_ok hlook'
    obtain ⟨-, rfl⟩ := isHomePath_of_entryOf hstands hold hsource hshort'
    obtain ⟨-, rfl⟩ := isHomePath_of_entryOf hstands hnew htarget hshort''
    refine ⟨⟨rfl, fun name => ?_⟩, hs.move hfile hdirectory hfree, fun _ => False.elim⟩
    -- Both names are below an entry of the home, and so are no entries of it.
    have hbelow (file : String) : ¬ tree.home ++ [directory] ++ [file] <+: tree.home ++ [name] := by
      intro hbelow
      have hlength := hbelow.length_le
      simp at hlength
    exact congrArg (Option.map Node.bare) (find?_move (hbelow old) (hbelow new) tree)

theorem homePath_append (tree : Tree) {stem : String} (hstem : stem ≠ "") (suffix : String) :
    tree.homePath (stem ++ suffix) = tree.homePath stem ++ suffix := by
  unfold homePath joinPath
  rw [isAbsolute_append hstem]
  split_ifs
  · rfl
  · rfl
  · rw [String.append_assoc]
  · simp only [String.append_assoc]

theorem endsInSlash_homePath (tree : Tree) {stem suffix : String} (hstem : stem ≠ "")
    (hsuffix : IsName suffix) : endsInSlash (tree.homePath (stem ++ suffix)) = false := by
  rw [homePath_append tree hstem]
  exact endsInSlash_append hsuffix

end Tree

end ContainerCheck.Host
