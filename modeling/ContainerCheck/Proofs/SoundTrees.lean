import ContainerCheck.Proofs.Renaming
import ContainerCheck.Proofs.ScratchFiles
import Mathlib.Data.List.Induction

namespace ContainerCheck.Host.Tree

open ContainerCheck.Text

def Rooted (tree : Tree) : Prop :=
  ∀ place name node, tree.find? (place ++ [name]) = some node → tree.find? place = some .directory

/-- A tree is rooted if each of its entries is in a directory. -/
theorem rooted_of_entries {tree : Tree}
    (h : ∀ e ∈ tree.entries, tree.find? e.1.dropLast = some .directory) : tree.Rooted := by
  intro place name node hfind
  rw [find?_of_ne (List.concat_ne_nil _ _), List.lookup_eq_some_iff] at hfind
  obtain ⟨before, after, hentries, -⟩ := hfind
  have hplace := h (place ++ [name], node) (by simp [hentries])
  rwa [List.dropLast_concat] at hplace

/-- A tree in which everything is in a directory, and the home can be walked to. -/
structure Sound (tree : Tree) : Prop extends tree.Grounded where
  rooted : tree.Rooted

/-- A tree is sound if its home is at the root and each of its entries is in a directory. -/
theorem sound_of_entries {tree : Tree} {name : String} (hhome : tree.home = [name])
    (hname : IsName name) (hshort : byteLength name.toList ≤ longestName)
    (hthere : tree.find? [name] = some .directory)
    (hentries : ∀ e ∈ tree.entries, tree.find? e.1.dropLast = some .directory) : tree.Sound := by
  refine ⟨⟨?_, ?_⟩, rooted_of_entries hentries⟩
  · intro place hplace
    have hway : place <+: [] ++ [name] := hhome ▸ hplace
    rcases List.prefix_concat_iff.mp hway with rfl | hroot
    · exact hthere
    · obtain rfl := List.prefix_nil.mp hroot
      rfl
  · intro other hother
    rw [hhome] at hother
    obtain rfl := List.mem_singleton.mp hother
    exact ⟨hname, hshort⟩

/-- Nothing is below what is no directory. -/
theorem Rooted.vacant {tree : Tree} (hr : tree.Rooted) {leaf : Place}
    (hleaf : tree.find? leaf ≠ some .directory) {rest : Place} (hrest : rest ≠ []) :
    tree.find? (leaf ++ rest) = none := by
  induction rest using List.reverseRecOn with
  | nil => exact absurd rfl hrest
  | append_singleton rest name ih =>
    cases hfind : tree.find? (leaf ++ (rest ++ [name])) with
    | none => rfl
    | some node =>
      rw [← List.append_assoc] at hfind
      have habove := hr _ _ _ hfind
      by_cases hnil : rest = []
      · rw [hnil, List.append_nil] at habove
        exact absurd habove hleaf
      · rw [ih hnil] at habove
        cases habove

/-- Nothing is at a free place, or below it. -/
theorem Rooted.vacant_below {tree : Tree} (hr : tree.Rooted) {leaf place : Place}
    (hleaf : tree.find? leaf = none) (hbelow : leaf <+: place) : tree.find? place = none := by
  obtain ⟨rest, rfl⟩ := hbelow
  by_cases hrest : rest = []
  · rw [hrest, List.append_nil]
    exact hleaf
  · exact hr.vacant (by simp [hleaf]) hrest

/-- Everything above a directory is one. -/
theorem Rooted.above {tree : Tree} (hr : tree.Rooted) {above place : Place}
    (hplace : tree.find? place = some .directory) (habove : above <+: place) :
    tree.find? above = some .directory := by
  by_contra hnone
  obtain ⟨rest, rfl⟩ := habove
  by_cases hrest : rest = []
  · rw [hrest, List.append_nil] at hplace
    exact hnone hplace
  · rw [hr.vacant hnone hrest] at hplace
    cases hplace

namespace Grounded

variable {tree : Tree} (hg : tree.Grounded) {place : Place}
include hg

/-- What is no directory is not on the way to the home. -/
theorem not_prefix_home (h : tree.find? place ≠ some .directory) : ¬ place <+: tree.home :=
  fun habove => h (hg.directories place habove)

theorem find?_of_findFrom? (h : tree.findFrom? place = some .directory) :
    tree.find? place = some .directory := by
  unfold findFrom? at h
  split at h
  · next heq => exact hg.directories place (heq ▸ List.prefix_refl _)
  · exact h

end Grounded

namespace Sound

variable {tree : Tree} (hs : tree.Sound)
include hs

/-- What is put in a directory, over no directory. -/
theorem put {directory : Place} {name : String}
    (hdirectory : tree.find? directory = some .directory)
    (hplace : tree.find? (directory ++ [name]) ≠ some .directory) (node : Node) :
    (tree.put (directory ++ [name]) node).Sound := by
  have hfind := find?_put tree (List.concat_ne_nil _ _ : directory ++ [name] ≠ []) node
  have hstays : ∀ place, tree.find? place = some .directory →
      (tree.put (directory ++ [name]) node).find? place = some .directory := by
    intro place hdir
    have hne : place ≠ directory ++ [name] := by
      rintro rfl
      exact hplace hdir
    rw [hfind, if_neg hne]
    exact hdir
  refine ⟨⟨fun place habove => hstays place (hs.directories place habove), hs.names⟩, ?_⟩
  intro place last found hfound
  rw [hfind] at hfound
  split at hfound
  · next heq =>
    obtain ⟨rfl, -⟩ := List.append_inj' heq rfl
    exact hstays place hdirectory
  · exact hstays place (hs.rooted place last found hfound)

theorem prune {place : Place} (h : ¬ place <+: tree.home) : (tree.prune place).Sound := by
  have hne : place ≠ [] := by
    rintro rfl
    exact h List.nil_prefix
  refine ⟨⟨?_, hs.names⟩, ?_⟩
  · intro above habove
    rw [find?_prune fun hbelow => h (hbelow.trans habove)]
    exact hs.directories above habove
  · intro directory name node hfound
    by_cases hbelow : place <+: directory ++ [name]
    · rw [find?_prune_below hne hbelow] at hfound
      cases hfound
    · rw [find?_prune hbelow] at hfound
      rw [find?_prune fun habove => hbelow (habove.trans (List.prefix_append _ _))]
      exact hs.rooted _ _ _ hfound

/-- What is no directory is moved into a directory, over no directory. -/
theorem move {source directory : Place} {name : String}
    (hsource : tree.find? source ≠ some .directory)
    (hdirectory : tree.find? directory = some .directory)
    (htarget : tree.find? (directory ++ [name]) ≠ some .directory) :
    (tree.move source (directory ++ [name])).Sound := by
  have hroot : source ≠ [] := by
    rintro rfl
    exact hsource rfl
  have hstays : ∀ place, tree.find? place = some .directory →
      (tree.move source (directory ++ [name])).find? place = some .directory := by
    intro place hdir
    rw [find?_move (fun hbelow => hsource (hs.rooted.above hdir hbelow))
      (fun hbelow => htarget (hs.rooted.above hdir hbelow))]
    exact hdir
  refine ⟨⟨fun place habove => hstays place (hs.directories place habove), hs.names⟩, ?_⟩
  intro place last found hfound
  by_cases htarget' : directory ++ [name] <+: place ++ [last]
  · obtain ⟨rest, hrest⟩ := htarget'
    rw [← hrest, find?_move_below hroot (List.concat_ne_nil _ _)] at hfound
    -- What has been moved is no directory, so there is nothing below it.
    by_cases hnil : rest = []
    · rw [hnil, List.append_nil] at hrest
      obtain ⟨rfl, -⟩ := List.append_inj' hrest rfl
      exact hstays _ hdirectory
    · rw [hs.rooted.vacant hsource hnil] at hfound
      cases hfound
  · by_cases hsource' : source <+: place ++ [last]
    · rw [find?_move_gone hroot hsource' htarget'] at hfound
      cases hfound
    · rw [find?_move hsource' htarget'] at hfound
      exact hstays place (hs.rooted place last found hfound)

end Sound

structure Within (part tree : Tree) : Prop where
  home : tree.home = part.home
  places : ∀ place node, part.find? place = some node → tree.find? place = some node

theorem Within.refl (tree : Tree) : tree.Within tree := ⟨rfl, fun _ _ h => h⟩

theorem Within.trans {a b c : Tree} (hab : a.Within b) (hbc : b.Within c) : a.Within c :=
  ⟨hbc.home.trans hab.home, fun place node h => hbc.places place node (hab.places place node h)⟩

namespace Within

variable {part tree : Tree} (h : part.Within tree)
include h

theorem findFrom? {place : Place} {node : Node} (hfind : part.findFrom? place = some node) :
    tree.findFrom? place = some node := by
  unfold Tree.findFrom? at hfind ⊢
  rw [h.home]
  split at hfind
  · next heq => rwa [if_pos heq]
  · next hne =>
    rw [if_neg hne]
    exact h.places place node hfind

theorem descend {place : Place} {names : List String} {stop : Stop}
    (hok : part.descend true place (names ++ ["."]) = .ok stop) :
    tree.descend true place (names ++ ["."]) = .ok stop := by
  induction names generalizing place with
  | nil =>
    have hfind := findFrom?_of_descend_ok hok
    rw [List.nil_append, descend_cons hfind] at hok
    rw [List.nil_append, descend_cons (h.findFrom? hfind)]
    exact hok
  | cons name names ih =>
    have hfind := findFrom?_of_descend_ok hok
    rw [List.cons_append, descend_cons hfind] at hok
    rw [List.cons_append, descend_cons (h.findFrom? hfind)]
    by_cases hdot : name = "."
    · rw [if_pos hdot] at hok ⊢
      exact ih hok
    by_cases hdots : name = ".."
    · rw [if_neg hdot, if_pos hdots] at hok ⊢
      exact ih hok
    rw [if_neg hdot, if_neg hdots] at hok ⊢
    split at hok
    · cases hok
    · next hshort =>
      rw [if_neg hshort]
      -- A walk with more names to come needs something under this one.
      cases hnode : part.find? (place ++ [name]) with
      | none => simp [hnode] at hok
      | some node =>
        rw [hnode] at hok
        rw [h.places _ _ hnode]
        cases node with
        | file content => exact ih hok
        | directory => exact ih hok
        | link target => exact hok

theorem walk {links : Nat} {place directory : Place} {names : List String}
    (hok : part.walk true links place (names ++ ["."]) = .ok directory) :
    tree.walk true links place (names ++ ["."]) = .ok directory := by
  induction links generalizing place names with
  | zero =>
    rcases walk_eq_ok hok with harrived | ⟨_, _, _, _, hlinks, _⟩
    · exact walk_of_arrived (h.descend harrived)
    · cases hlinks
  | succ links ih =>
    rcases walk_eq_ok hok with harrived | ⟨there, target, rest, left, hlinks, hlink, hwalk⟩
    · exact walk_of_arrived (h.descend harrived)
    · cases hlinks
      obtain ⟨names', rfl, -⟩ := descend_goesOn hlink (List.cons_ne_nil "." [])
      rw [← List.append_assoc] at hwalk
      rw [Tree.walk, h.descend hlink]
      simp only [← List.append_assoc]
      exact ih hwalk

theorem walkFrom {path : String} {directory : Place} {names : List String}
    (hok : part.walkFrom true path (names ++ ["."]) = .ok directory) :
    tree.walkFrom true path (names ++ ["."]) = .ok directory := by
  unfold Tree.walkFrom at hok ⊢
  rw [h.home]
  split_ifs at hok ⊢ <;> exact h.walk hok

/-- A path that leads to an entry by part of a tree leads there by all of it. -/
theorem entryOf {unnamed : IoFault} {path : String} {entry : Entry}
    (hok : part.entryOf unnamed path = .ok entry) : tree.entryOf unnamed path = .ok entry := by
  unfold Tree.entryOf at hok ⊢
  obtain ⟨directory, hdirectory, hlast⟩ := bind_eq_ok_iff.mp hok
  exact bind_eq_ok_iff.mpr ⟨directory, h.walkFrom hdirectory, hlast⟩

end Within

end ContainerCheck.Host.Tree
