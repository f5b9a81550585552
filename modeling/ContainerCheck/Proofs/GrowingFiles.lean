import ContainerCheck.Proofs.Renaming

namespace ContainerCheck.Host

open ContainerCheck.Text

inductive Node.GrowsTo : Node → Node → Prop
  | same (node : Node) : GrowsTo node node
  | file (content more : List UInt8) : GrowsTo (.file content) (.file (content ++ more))

namespace Tree

structure Grows (before after : Tree) : Prop where
  home : after.home = before.home
  entries : ∀ place node, before.find? place = some node →
    ∃ node', after.find? place = some node' ∧ node.GrowsTo node'

theorem Grows.refl (tree : Tree) : tree.Grows tree := ⟨rfl, fun _ node h => ⟨node, h, .same node⟩⟩

theorem find?_nil (tree : Tree) : tree.find? [] = some .directory := rfl

/-- What comes to stand at a free place disturbs nothing. -/
theorem grows_put_free {tree : Tree} {place : Place} (hfree : tree.find? place = none)
    (node : Node) : tree.Grows (tree.put place node) where
  home := rfl
  entries other found h := by
    have hroot : place ≠ [] := by
      rintro rfl
      rw [find?_nil] at hfree
      cases hfree
    have hne : other ≠ place := by
      rintro rfl
      rw [hfree] at h
      cases h
    rw [find?_put tree hroot, if_neg hne]
    exact ⟨found, h, .same found⟩

theorem grows_put_file {tree : Tree} {place : Place} {content : List UInt8}
    (hfile : tree.find? place = some (.file content)) (more : List UInt8) :
    tree.Grows (tree.put place (.file (content ++ more))) where
  home := rfl
  entries other found h := by
    have hroot : place ≠ [] := by
      rintro rfl
      rw [find?_nil] at hfile
      cases hfile
    rw [find?_put tree hroot]
    split
    · next heq =>
      rw [heq, hfile] at h
      cases h
      exact ⟨_, rfl, .file content more⟩
    · exact ⟨found, h, .same found⟩

section

variable {before after : Tree} (hgrows : before.Grows after)
include hgrows

theorem Grows.find?_directory {place : Place} (h : before.find? place = some .directory) :
    after.find? place = some .directory := by
  obtain ⟨node, hnode, hto⟩ := hgrows.entries place _ h
  cases hto
  exact hnode

theorem Grows.find?_link {place : Place} {target : String}
    (h : before.find? place = some (.link target)) : after.find? place = some (.link target) := by
  obtain ⟨node, hnode, hto⟩ := hgrows.entries place _ h
  cases hto
  exact hnode

theorem Grows.find?_file {place : Place} {content : List UInt8}
    (h : before.find? place = some (.file content)) :
    ∃ more, after.find? place = some (.file (content ++ more)) := by
  obtain ⟨node, hnode, hto⟩ := hgrows.entries place _ h
  cases hto with
  | same => exact ⟨[], by rw [hnode, List.append_nil]⟩
  | file _ more => exact ⟨more, hnode⟩

theorem Grows.findFrom?_directory {place : Place} (h : before.findFrom? place = some .directory) :
    after.findFrom? place = some .directory := by
  unfold findFrom? at h ⊢
  rw [hgrows.home]
  split
  · rfl
  · next hhome =>
    rw [if_neg hhome] at h
    exact hgrows.find?_directory h

/-- Whether a walk has come to something that is there, a link at the least. -/
def Stop.Stands (tree : Tree) : Stop → Prop
  | .arrived place => (tree.find? place).isSome
  | .atLink .. => True

/-- A walk to something that is there goes the same way in a tree that has grown. -/
theorem descend_grows {follow : Bool} {place : Place} {names : List String} {stop : Stop}
    (h : before.descend follow place names = .ok stop) (hstands : stop.Stands before) :
    after.descend follow place names = .ok stop := by
  induction names generalizing place with
  | nil => exact h
  | cons name names ih =>
    have hfrom := findFrom?_of_descend_ok h
    rw [descend_cons hfrom] at h
    rw [descend_cons (hgrows.findFrom?_directory hfrom)]
    by_cases hdot : name = "."
    · rw [if_pos hdot] at h ⊢
      exact ih h
    rw [if_neg hdot] at h ⊢
    by_cases hdots : name = ".."
    · rw [if_pos hdots] at h ⊢
      exact ih h
    rw [if_neg hdots] at h ⊢
    by_cases hlong : longestName < byteLength name.toList
    · rw [if_pos hlong] at h
      cases h
    rw [if_neg hlong] at h ⊢
    cases hnode : before.find? (place ++ [name]) with
    | none =>
      -- Only the last name may be free, and then the walk has come to nothing.
      rw [hnode] at h
      dsimp only at h
      split at h
      · cases h
        change (before.find? (place ++ [name])).isSome at hstands
        rw [hnode] at hstands
        cases hstands
      · cases h
    | some node =>
      rw [hnode] at h
      cases node with
      | file content =>
        obtain ⟨more, hmore⟩ := hgrows.find?_file hnode
        rw [hmore]
        exact ih h
      | directory =>
        rw [hgrows.find?_directory hnode]
        exact ih h
      | link target =>
        rw [hgrows.find?_link hnode]
        exact h

theorem walk_grows {follow : Bool} {links : Nat} {place there : Place} {names : List String}
    (h : before.walk follow links place names = .ok there)
    (hthere : (before.find? there).isSome) : after.walk follow links place names = .ok there := by
  induction links generalizing place names with
  | zero =>
    rcases walk_eq_ok h with harrived | ⟨_, _, _, _, hlinks, _⟩
    · exact walk_of_arrived (descend_grows hgrows harrived hthere)
    · cases hlinks
  | succ links ih =>
    rcases walk_eq_ok h with harrived | ⟨directory, target, rest, left, hlinks, hlink, hwalk⟩
    · exact walk_of_arrived (descend_grows hgrows harrived hthere)
    · cases hlinks
      rw [walk, descend_grows hgrows hlink trivial]
      exact ih hwalk

theorem resolve_grows {follow : Bool} {path : String} {there : Place}
    (h : before.resolve follow path = .ok there) (hthere : (before.find? there).isSome) :
    after.resolve follow path = .ok there := by
  unfold resolve walkFrom at h ⊢
  rw [hgrows.home]
  split at h
  · cases h
  next hnul =>
  split at h
  · cases h
  next hne =>
  split at h
  · cases h
  next hfits =>
  rw [if_neg hnul, if_neg hne, if_neg hfits]
  exact walk_grows hgrows h hthere

end

/-- A path that is read leads to a file. -/
theorem read_eq_ok_iff {tree : Tree} {path : String} {content : List UInt8} :
    tree.read path = .ok content ↔ ∃ place, tree.resolve true path = .ok place ∧
      place ≠ tree.home ∧ tree.find? place = some (.file content) := by
  unfold read
  rw [bind_eq_ok_iff]
  refine exists_congr fun place => and_congr_right fun _ => ?_
  unfold findFrom?
  by_cases hhome : place = tree.home
  · simp [hhome]
  · rw [if_neg hhome]
    cases tree.find? place with
    | none => simp
    | some node => cases node <;> simp [pure, Except.pure, hhome]

/-- What is read after a tree has grown begins with what was read before. -/
theorem Grows.read {before after : Tree} (hgrows : before.Grows after) {path : String}
    {content : List UInt8} (h : before.read path = .ok content) :
    ∃ more, after.read path = .ok (content ++ more) := by
  obtain ⟨place, hplace, hhome, hfile⟩ := read_eq_ok_iff.mp h
  obtain ⟨more, hmore⟩ := hgrows.find?_file hfile
  refine ⟨more, read_eq_ok_iff.mpr ⟨place, ?_, ?_, hmore⟩⟩
  · exact resolve_grows hgrows hplace (by rw [hfile]; rfl)
  · rw [hgrows.home]
    exact hhome

/-- What is appended to a file is read behind what was there. -/
theorem read_append {tree : Tree} {path : String} {content : List UInt8}
    (h : tree.read path = .ok content) (more : List UInt8) :
    ∃ tree', tree.append path more = .ok tree' ∧ tree'.read path = .ok (content ++ more) := by
  obtain ⟨place, hplace, hhome, hfile⟩ := read_eq_ok_iff.mp h
  have hgrows := grows_put_file hfile more
  have hfrom : tree.findFrom? place = some (.file content) := by
    rw [findFrom?, if_neg hhome, hfile]
  have hroot : place ≠ [] := by
    rintro rfl
    rw [find?_nil] at hfile
    cases hfile
  refine ⟨tree.put place (.file (content ++ more)), ?_, ?_⟩
  · unfold append store
    simp only [hplace, bind, Except.bind, hfrom]
    rfl
  · refine read_eq_ok_iff.mpr ⟨place, ?_, hhome, ?_⟩
    · exact resolve_grows hgrows hplace (by rw [hfile]; rfl)
    · rw [find?_put tree hroot, if_pos rfl]

end Tree

/-- An append to a file that can be read takes effect, whether or not anybody heeds how it ends. -/
theorem FileAction.read_attempt_append {tree : Tree} {path : String} {content : List UInt8}
    (h : tree.read path = .ok content) (more : List UInt8) :
    ((FileAction.append path more).attempt tree).read path = .ok (content ++ more) := by
  obtain ⟨tree', happend, hread⟩ := Tree.read_append h more
  have hattempt : (FileAction.append path more).attempt tree = tree' := by
    change (tree.orUnchanged (tree.append path more)).2 = tree'
    rw [happend]
    rfl
  rw [hattempt]
  exact hread

end ContainerCheck.Host
