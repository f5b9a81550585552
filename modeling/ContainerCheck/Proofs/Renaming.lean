import ContainerCheck.Proofs.Directories

namespace ContainerCheck.Host.Tree

open ContainerCheck.Text

variable {tree : Tree}

/-- Where a walk to a directory goes on with other names than a dot. Whether the last of them is
followed makes no difference yet. -/
def Stop.GoesOn (tree : Tree) (place : Place) (names more : List String) : Stop → Prop
  | .arrived directory => tree.findFrom? directory = some .directory ∧ ∀ follow,
      tree.descend follow place (names ++ more) = tree.descend follow directory more
  | .atLink directory target rest => ∃ left, rest = left ++ ["."] ∧ ∀ follow,
      tree.descend follow place (names ++ more) = .ok (.atLink directory target (left ++ more))

theorem Stop.GoesOn.of_eq {place place' : Place} {names names' more : List String} {stop : Stop}
    (h : stop.GoesOn tree place' names' more)
    (heq : ∀ follow, tree.descend follow place (names ++ more) =
      tree.descend follow place' (names' ++ more)) :
    stop.GoesOn tree place names more := by
  cases stop with
  | arrived directory => exact ⟨h.1, fun follow => (heq follow).trans (h.2 follow)⟩
  | atLink directory target rest =>
    obtain ⟨left, hrest, hdescend⟩ := h
    exact ⟨left, hrest, fun follow => (heq follow).trans (hdescend follow)⟩

/-- Whoever walks is in a directory before each step. -/
theorem findFrom?_of_descend_ok {follow : Bool} {place : Place} {name : String}
    {names : List String} {stop : Stop}
    (h : tree.descend follow place (name :: names) = .ok stop) :
    tree.findFrom? place = some .directory := by
  rw [descend] at h
  cases hfind : tree.findFrom? place with
  | none =>
    rw [hfind] at h
    cases h
  | some node =>
    rw [hfind] at h
    cases node with
    | file content => cases h
    | link target => cases h
    | directory => rfl

/-- A step of a walk with more names to come does not depend on those: it goes on from another
place, or it has come to a link. -/
theorem descend_step {place : Place} {name : String} {names : List String} {stop : Stop}
    (h : tree.descend true place (name :: names) = .ok stop) (hne : names ≠ []) :
    (∃ next, ∀ follow more, more ≠ [] →
      tree.descend follow place (name :: more) = tree.descend follow next more) ∨
      ∃ target, ∀ follow more, more ≠ [] →
        tree.descend follow place (name :: more) = .ok (.atLink place target more) := by
  have hcons := fun follow => descend_cons (findFrom?_of_descend_ok h) follow name
  by_cases hdot : name = "."
  · left
    refine ⟨place, fun follow more _ => ?_⟩
    rw [hcons, if_pos hdot]
  by_cases hdots : name = ".."
  · left
    refine ⟨place.dropLast, fun follow more _ => ?_⟩
    rw [hcons, if_neg hdot, if_pos hdots]
  by_cases hlong : longestName < byteLength name.toList
  · rw [hcons, if_neg hdot, if_neg hdots, if_pos hlong] at h
    cases h
  -- From here on it depends on what stands under the name.
  simp only [if_neg hdot, if_neg hdots, if_neg hlong] at hcons
  cases hnode : tree.find? (place ++ [name]) with
  | none =>
    simp only [hcons, hnode, if_neg hne] at h
    cases h
  | some node =>
    cases node with
    | file content => exact .inl ⟨_, fun follow more _ => by rw [hcons, hnode]⟩
    | directory => exact .inl ⟨_, fun follow more _ => by rw [hcons, hnode]⟩
    | link target =>
      right
      refine ⟨target, fun follow more hmore => ?_⟩
      rw [hcons, hnode]
      simp [hmore]

theorem descend_goesOn {place : Place} {names : List String} {stop : Stop}
    (h : tree.descend true place (names ++ ["."]) = .ok stop) {more : List String}
    (hmore : more ≠ []) : stop.GoesOn tree place names more := by
  induction names generalizing place with
  | nil =>
    have hfind := findFrom?_of_descend_ok h
    rw [List.nil_append, descend_cons hfind] at h
    cases h
    exact ⟨hfind, fun _ => rfl⟩
  | cons name names ih =>
    have hdot : names ++ ["."] ≠ [] := by simp
    have hrest : names ++ more ≠ [] := by simp [hmore]
    rw [List.cons_append] at h
    rcases descend_step h hdot with ⟨next, hstep⟩ | ⟨target, hstep⟩
    · rw [hstep _ _ hdot] at h
      exact (ih h).of_eq fun follow => hstep follow _ hrest
    · rw [hstep _ _ hdot] at h
      cases h
      exact ⟨names, rfl, fun follow => hstep follow _ hrest⟩

/-- What a walk that gets somewhere does first: it arrives, or it follows a link. -/
theorem walk_eq_ok {follow : Bool} {links : Nat} {place directory : Place} {names : List String}
    (h : tree.walk follow links place names = .ok directory) :
    tree.descend follow place names = .ok (.arrived directory) ∨
      ∃ there target rest left, links = left + 1 ∧
        tree.descend follow place names = .ok (.atLink there target rest) ∧
        tree.walk follow left (if (walkOf target).absolute then [] else there)
          ((walkOf target).names ++ rest) = .ok directory := by
  unfold walk at h
  dsimp only at h
  cases hstop : tree.descend follow place names with
  | error fault =>
    rw [hstop] at h
    cases h
  | ok stop =>
    rw [hstop] at h
    cases stop with
    | arrived there =>
      cases h
      exact .inl rfl
    | atLink there target rest =>
      cases links with
      | zero => cases h
      | succ left => exact .inr ⟨there, target, rest, left, rfl, rfl, h⟩

/-- A walk to a directory goes on from there with other names than a dot. -/
theorem walk_goesOn {links : Nat} {place directory : Place} {names : List String}
    (h : tree.walk true links place (names ++ ["."]) = .ok directory) {more : List String}
    (hmore : more ≠ []) :
    tree.findFrom? directory = some .directory ∧ ∃ left, ∀ follow,
      tree.walk follow links place (names ++ more) = tree.walk follow left directory more := by
  -- Each link that is followed leaves one link less, with the dot still at the end.
  induction links generalizing place names with
  | zero =>
    rcases walk_eq_ok h with harrived | ⟨_, _, _, _, hlinks, _⟩
    · obtain ⟨hdirectory, hdescend⟩ := descend_goesOn harrived hmore
      refine ⟨hdirectory, 0, fun follow => ?_⟩
      rw [walk, walk, hdescend]
    · cases hlinks
  | succ links ih =>
    rcases walk_eq_ok h with harrived | ⟨there, target, rest, left, hlinks, hlink, hwalk⟩
    · obtain ⟨hdirectory, hdescend⟩ := descend_goesOn harrived hmore
      refine ⟨hdirectory, links + 1, fun follow => ?_⟩
      rw [walk, walk, hdescend]
    · cases hlinks
      obtain ⟨names', rfl, hdescend⟩ := descend_goesOn hlink hmore
      rw [← List.append_assoc] at hwalk
      obtain ⟨hdirectory, links', hgoes⟩ := ih hwalk
      refine ⟨hdirectory, links', fun follow => ?_⟩
      rw [walk, hdescend]
      simp only [← List.append_assoc]
      exact hgoes follow

theorem walkFrom_goesOn {path : String} {directory : Place} {names : List String}
    (h : tree.walkFrom true path (names ++ ["."]) = .ok directory) {more : List String}
    (hmore : more ≠ []) :
    tree.findFrom? directory = some .directory ∧ ∃ left, ∀ follow,
      tree.walkFrom follow path (names ++ more) = tree.walk follow left directory more := by
  obtain ⟨hnul, hne, hfits, hwalk⟩ := walkFrom_eq_ok_iff.mp h
  unfold walkFrom
  simp only [if_neg hnul, if_neg hne, if_neg (Nat.not_lt.mpr hfits)]
  exact walk_goesOn hwalk hmore

theorem walk_of_arrived {follow : Bool} {links : Nat} {place there : Place} {names : List String}
    (h : tree.descend follow place names = .ok (.arrived there)) :
    tree.walk follow links place names = .ok there := by
  rw [walk, h]

/-- A walk that gets somewhere gets to the same place through any number of links, unless they are
too many for it. -/
theorem walk_of_ok {follow : Bool} {links : Nat} {place there : Place} {names : List String}
    (h : tree.walk follow links place names = .ok there) (links' : Nat) :
    tree.walk follow links' place names = .ok there ∨
      tree.walk follow links' place names = .error .tooManyLinks := by
  induction links' generalizing links place names with
  | zero =>
    rcases walk_eq_ok h with harrived | ⟨_, _, _, _, -, hlink, -⟩
    · exact .inl (walk_of_arrived harrived)
    · right
      rw [walk, hlink]
  | succ links' ih =>
    rcases walk_eq_ok h with harrived | ⟨_, _, _, _, -, hlink, hwalk⟩
    · exact .inl (walk_of_arrived harrived)
    · rw [walk, hlink]
      exact ih hwalk

theorem names_walkOf {path : String} {init : List String} {name : String}
    (h : namesOf path = init ++ [name]) :
    (walkOf path).names = init ++ [name] ∨ (walkOf path).names = init ++ [name, "."] := by
  unfold walkOf
  rw [h]
  dsimp only
  split
  · right
    simp
  · left
    rfl

/-- What a path reads as a file is no directory by its last name. -/
theorem not_directory_of_read {path : String} {content : List UInt8} {unnamed : IoFault}
    {entry : Entry} {found : Option Node} (hread : tree.read path = .ok content)
    (hentry : tree.entryOf unnamed path = .ok entry) (hlook : tree.look entry = .ok found) :
    tree.find? entry.place ≠ some .directory := by
  -- A directory by its last name is where the whole path leads, and it cannot be read.
  intro hdir
  obtain ⟨init, hnames, hwalk, hnoDot, hnoDots⟩ := entryOf_eq_ok hentry
  obtain ⟨_, hshort, _⟩ := look_eq_ok hlook
  have hthere : tree.findFrom? entry.place = some .directory := by
    unfold findFrom?
    rw [hdir, ite_self]
  have harrived : ∀ rest, rest = [] ∨ rest = ["."] →
      tree.findFrom? entry.directory = some .directory →
      tree.descend true entry.directory (entry.name :: rest) = .ok (.arrived entry.place) := by
    intro rest hrest hfind
    rw [descend_cons hfind, if_neg hnoDot, if_neg hnoDots, if_neg (Nat.not_lt.mpr hshort)]
    unfold Entry.place at hdir hthere ⊢
    rw [hdir]
    rcases hrest with rfl | rfl
    · rfl
    · exact (descend_cons hthere true "." []).trans rfl
  have hresolve : tree.resolve true path = .ok entry.place := by
    unfold resolve
    rcases names_walkOf hnames with heq | heq
    · obtain ⟨hfind, left, hgoes⟩ := walkFrom_goesOn hwalk (List.cons_ne_nil entry.name [])
      rw [heq, hgoes]
      exact walk_of_arrived (harrived [] (.inl rfl) hfind)
    · obtain ⟨hfind, left, hgoes⟩ := walkFrom_goesOn hwalk (List.cons_ne_nil entry.name ["."])
      rw [heq, hgoes]
      exact walk_of_arrived (harrived ["."] (.inr rfl) hfind)
  obtain ⟨place, hplace, hfile⟩ := bind_eq_ok_iff.mp hread
  rw [hresolve] at hplace
  cases hplace
  rw [hthere] at hfile
  cases hfile

/-- A file or a link that is renamed is moved to where no directory is, or stays. -/
theorem moved_of_rename {source target : String} {old new : Entry} {tree' : Tree}
    (h : (do
      let there ← tree.look new
      if endsInSlash source ∨ endsInSlash target then .error .notDirectory
      else if there = some .directory then .error .isDirectory
      else if old.place = new.place then return tree
      else return tree.move old.place new.place) = (.ok tree' : Except IoFault Tree)) :
    tree' = tree ∨ tree.look new = .ok (tree.find? new.place) ∧
      tree.find? new.place ≠ some .directory ∧ tree' = tree.move old.place new.place := by
  obtain ⟨there, hlook, h⟩ := bind_eq_ok_iff.mp h
  obtain ⟨_, _, rfl⟩ := look_eq_ok hlook
  split at h
  · cases h
  · split at h
    · cases h
    · next hfree =>
      split at h
      · cases h
        exact .inl rfl
      · cases h
        exact .inr ⟨hlook, hfree, rfl⟩

/-- Renaming what has been read moves it from where no directory is to where none is, if it moves
it at all. -/
theorem rename_eq_ok {source target : String} {content : List UInt8} {tree' : Tree}
    (hread : tree.read source = .ok content) (h : tree.rename source target = .ok tree') :
    ∃ old new, tree.entryOf .busy source = .ok old ∧ tree.entryOf .busy target = .ok new ∧
      tree.look old = .ok (tree.find? old.place) ∧ tree.find? old.place ≠ some .directory ∧
        (tree' = tree ∨ tree.look new = .ok (tree.find? new.place) ∧
          tree.find? new.place ≠ some .directory ∧ tree' = tree.move old.place new.place) := by
  obtain ⟨old, hold, h⟩ := bind_eq_ok_iff.mp h
  obtain ⟨new, hnew, h⟩ := bind_eq_ok_iff.mp h
  obtain ⟨found, hlook, h⟩ := bind_eq_ok_iff.mp h
  have hfile := not_directory_of_read hread hold hlook
  obtain ⟨_, _, rfl⟩ := look_eq_ok hlook
  refine ⟨old, new, hold, hnew, hlook, hfile, ?_⟩
  cases hnode : tree.find? old.place with
  | none =>
    rw [hnode] at h
    cases h
  | some node =>
    rw [hnode] at h
    cases node with
    | directory => exact absurd hnode hfile
    | file content => exact moved_of_rename h
    | link text => exact moved_of_rename h

/-- Renaming what has been read keeps a directory with those it is in. -/
theorem rename_keeps {source target : String} {content : List UInt8} {tree' : Tree}
    (hread : tree.read source = .ok content) (h : tree.rename source target = .ok tree') :
    tree'.home = tree.home ∧
      ∀ place, (∀ above, above <+: place → tree.find? above = some .directory) →
        tree'.find? place = some .directory := by
  obtain ⟨old, new, -, -, -, hfile, hmoved⟩ := rename_eq_ok hread h
  rcases hmoved with rfl | ⟨-, hfree, rfl⟩
  · exact ⟨rfl, fun place hdirs => hdirs place (List.prefix_refl place)⟩
  · refine ⟨rfl, ?_⟩
    intro place hdirs
    -- Neither end of the move is a directory, so neither is above one.
    have hold : ¬ old.place <+: place := fun habove => hfile (hdirs _ habove)
    have hnew : ¬ new.place <+: place := fun habove => hfree (hdirs _ habove)
    rw [find?_move hold hnew]
    exact hdirs place (List.prefix_refl place)

end ContainerCheck.Host.Tree
