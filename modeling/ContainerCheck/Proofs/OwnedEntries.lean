import ContainerCheck.Proofs.GuardedPaths
import Mathlib.Data.List.Perm.Basic

namespace ContainerCheck

open ContainerCheck.Host ContainerCheck.Text

namespace Host.Tree

section

variable {first : Tree} (hs : first.Sound) {entry other : Entry}
include hs

/-- Entries that are free in a tree are not below each other. -/
theorem Free.apart (h : first.Free entry) (hother : first.Free other)
    (hne : entry.place ≠ other.place) : ¬ entry.place <+: other.place := by
  intro hbelow
  rcases List.prefix_concat_iff.mp hbelow with heq | habove
  · exact hne heq
  · have hdirectory := hs.rooted.above hother.directory habove
    rw [h.vacant] at hdirectory
    cases hdirectory

/-- Nothing is below two of them. -/
theorem Free.eq_of_prefix (h : first.Free entry) (hother : first.Free other) {place : Place}
    (hbelow : entry.place <+: place) (hbelow' : other.place <+: place) :
    entry.place = other.place := by
  by_contra hne
  rcases List.prefix_or_prefix_of_prefix hbelow hbelow' with hfirst | hfirst
  · exact h.apart hs hother hne hfirst
  · exact hother.apart hs h (Ne.symm hne) hfirst

end

section

variable {tree : Tree} {path target : String} {entry other : Entry}

/-- Where something is already, nothing can be made. -/
theorem create_taken {node found : Node} (hentry : tree.entryOf .alreadyExists path = .ok entry)
    (hdirectory : tree.find? entry.directory = some .directory)
    (hshort : byteLength entry.name.toList ≤ longestName)
    (hfound : tree.find? entry.place = some found) :
    tree.create path node = .error .alreadyExists := by
  have hlook : tree.look entry = .ok (some found) := by
    unfold look isDirectory
    rw [hdirectory, if_neg (by simp), if_neg (Nat.not_lt.mpr hshort), hfound]
  simp only [create, hentry, hlook, bind, Except.bind]

/-- A link to the path of an entry where nothing is leads to nothing. -/
theorem exists?_dangling (hs : tree.Sound) (hentry : tree.entryOf .alreadyExists path = .ok entry)
    (hshort : byteLength entry.name.toList ≤ longestName) (hslash : endsInSlash path = false)
    (hlink : tree.find? entry.place = some (.link target))
    (hother : tree.entryOf .alreadyExists target = .ok other)
    (hshort' : byteLength other.name.toList ≤ longestName) (hslash' : endsInSlash target = false)
    (habsolute : isAbsolute target = true) (hvacant : tree.find? other.place = none) :
    tree.exists? path = .ok false ∨ tree.exists? path = .error .tooManyLinks := by
  have htarget : tree.resolve true target = .ok other.place :=
    resolve_entry hother hshort' hslash' (.inr (by simp [hvacant]))
  obtain ⟨-, -, -, hwalk⟩ := walkFrom_eq_ok_iff.mp htarget
  have hnone : tree.findFrom? other.place = none := by
    have hhome : other.place ≠ tree.home := by
      intro heq
      have hthere := hs.directories tree.home (List.prefix_refl _)
      rw [← heq, hvacant] at hthere
      cases hthere
    exact (if_neg hhome).trans hvacant
  have htooMany (hresolve : tree.resolve true path = .error .tooManyLinks) :
      tree.exists? path = .error .tooManyLinks := by
    unfold exists?
    rw [hresolve]
    rfl
  rcases resolve_link hentry hshort hslash hlink with hresolve | ⟨left, hresolve⟩
  · exact .inr (htooMany hresolve)
  · rw [if_pos habsolute] at hwalk hresolve
    -- The link leads on as its target does, but with fewer links left.
    rcases walk_of_ok hwalk left with hthere | hthere
    · left
      unfold exists?
      rw [hresolve, hthere]
      dsimp only
      rw [hnone]
      rfl
    · exact .inr (htooMany (hresolve.trans hthere))

end

theorem Alike.sound {before after : Tree} (h : before.Alike after) (hs : before.Sound) :
    after.Sound where
  directories place hplace := (h.places place).trans (hs.directories place (h.home ▸ hplace))
  names := h.home ▸ hs.names
  rooted place name node hfind := by
    rw [h.places] at hfind ⊢
    exact hs.rooted place name node hfind

end Host.Tree

namespace Check

structure Holding where
  guard : Guard
  entry : Tree.Entry

def Holding.place (x : Holding) : Place := x.entry.place

/-- At a place and below it there is what a guard has made and nothing else: a directory with the
flag file alone, or a link to the target that its path is beside. -/
def Guard.StandsAt (tree : Tree) (place : Place) : Guard → Prop
  | directory _ => ∀ rest, tree.find? (place ++ rest) =
      if rest = [] then some .directory else if rest = [flagFile] then some (.file []) else none
  | link path => ∃ target, target ≠ "" ∧ path = linkPath target ∧ ∀ rest,
      tree.find? (place ++ rest) = if rest = [] then some (.link target) else none

namespace Guard.StandsAt

variable {tree after : Tree} {place : Place} {guard : Guard}

theorem of_same (h : guard.StandsAt tree place)
    (hsame : ∀ rest, after.find? (place ++ rest) = tree.find? (place ++ rest)) :
    guard.StandsAt after place := by
  cases guard with
  | directory path => exact fun rest => (hsame rest).trans (h rest)
  | link path =>
    obtain ⟨target, hsome, hpath, hthere⟩ := h
    exact ⟨target, hsome, hpath, fun rest => (hsame rest).trans (hthere rest)⟩

theorem exists_node (h : guard.StandsAt tree place) :
    ∃ node, guard.Guards node ∧ tree.find? place = some node := by
  cases guard with
  | directory path =>
    have hthere := h []
    rw [List.append_nil] at hthere
    exact ⟨.directory, rfl, hthere⟩
  | link path =>
    obtain ⟨target, -, -, hbelow⟩ := h
    have hthere := hbelow []
    rw [List.append_nil] at hthere
    exact ⟨.link target, ⟨target, rfl⟩, hthere⟩

end Guard.StandsAt

/-- The path of a guard names an entry at which something can be made. -/
structure Holding.Fits (tree : Tree) (x : Holding) : Prop where
  leads : tree.entryOf .alreadyExists x.guard.path = .ok x.entry
  free : tree.Free x.entry
  slashless : endsInSlash x.guard.path = false
  absolute : ∀ path, x.guard = .directory path → isAbsolute path = true

structure Holding.Made (before : Tree) (x : Holding) (after : Tree) : Prop
    extends x.Fits before where
  same : Tree.SameOutside x.place before after
  stands : x.guard.StandsAt after x.place
  sound : after.Sound

/-- A sound tree in which there is what was there at first and what some guards have made, each at
an entry of its own, and nothing else. -/
structure Owned (first : Tree) (held : List Holding) (now : Tree) : Prop where
  home : now.home = first.home
  fits : ∀ x ∈ held, x.Fits first
  stands : ∀ x ∈ held, x.guard.StandsAt now x.place
  apart : held.Pairwise fun x y => x.place ≠ y.place
  rest : ∀ place, (∀ x ∈ held, ¬ x.place <+: place) → now.find? place = first.find? place
  sound : now.Sound

theorem owned_nil {first : Tree} (hs : first.Sound) : Owned first [] first :=
  ⟨rfl, by simp, by simp, .nil, fun _ _ => rfl, hs⟩

namespace Owned

variable {first now after : Tree} {held : List Holding} {x : Holding}

theorem alike (h : Owned first held now) (halike : now.Alike after) : Owned first held after where
  home := halike.home.trans h.home
  fits := h.fits
  stands y hy := (h.stands y hy).of_same fun _ => halike.places _
  apart := h.apart
  rest place hplace := (halike.places place).trans (h.rest place hplace)
  sound := halike.sound h.sound

section

variable (hs : first.Sound) (h : Owned first held now)
include hs h

/-- All that was there at first is still there. -/
theorem within : first.Within now where
  home := h.home
  places place node hfind := by
    refine (h.rest place fun x hx hbelow => ?_).trans hfind
    rw [hs.rooted.vacant_below (h.fits x hx).free.vacant hbelow] at hfind
    cases hfind

/-- The path of a guard still names its entry. -/
theorem leads (hx : x ∈ held) : now.entryOf .alreadyExists x.guard.path = .ok x.entry :=
  (h.within hs).entryOf (h.fits x hx).leads

/-- What can be made now by a way that was open at first could have been made at first. -/
theorem fits_first (hx : x.Fits now) {entry : Tree.Entry}
    (hentry : first.entryOf .alreadyExists x.guard.path = .ok entry) : x.Fits first := by
  have hwithin := h.within hs
  obtain rfl : entry = x.entry := by
    have hnow := hwithin.entryOf hentry
    rw [hx.leads] at hnow
    exact (Except.ok.inj hnow).symm
  refine ⟨hentry, ⟨?_, hx.free.short, ?_⟩, hx.slashless, hx.absolute⟩
  · obtain ⟨init, -, hwalk, -, -⟩ := Tree.entryOf_eq_ok hentry
    exact hs.find?_of_findFrom? (Tree.walkFrom_goesOn hwalk (List.cons_ne_nil "." [])).1
  · by_contra hsome
    obtain ⟨node, hnode⟩ := Option.ne_none_iff_exists'.mp hsome
    have hthere := hwithin.places _ _ hnode
    rw [hx.free.vacant] at hthere
    cases hthere

/-- What is newly made joins what has been made before. -/
theorem add (hmade : x.Made now after) (hfits : x.Fits first) :
    Owned first (held ++ [x]) after := by
  have hother : ∀ y ∈ held, y.place ≠ x.place := by
    intro y hy heq
    obtain ⟨node, -, hnode⟩ := (h.stands y hy).exists_node
    rw [heq, show now.find? x.place = none from hmade.free.vacant] at hnode
    cases hnode
  refine ⟨hmade.same.home.trans h.home, ?_, ?_, ?_, ?_, hmade.sound⟩
  · intro y hy
    rcases List.mem_append.mp hy with hold | hnew
    · exact h.fits y hold
    · exact List.mem_singleton.mp hnew ▸ hfits
  · intro y hy
    rcases List.mem_append.mp hy with hold | hnew
    · refine (h.stands y hold).of_same fun rest => hmade.same.places _ fun hbelow => ?_
      have heq := hfits.free.eq_of_prefix hs (h.fits y hold).free hbelow (List.prefix_append _ rest)
      exact hother y hold heq.symm
    · exact List.mem_singleton.mp hnew ▸ hmade.stands
  · refine List.pairwise_append.mpr ⟨h.apart, List.pairwise_singleton _ x, ?_⟩
    intro y hy z hz
    rw [List.mem_singleton.mp hz]
    exact hother y hy
  · intro place hplace
    have hnew := hplace x (by simp)
    exact (hmade.same.places place hnew).trans
      (h.rest place fun y hy => hplace y (List.mem_append_left _ hy))

section

variable {index : Nat} (hget : held[index]? = some x)
include hget

/-- What has been made goes, and all else stays. -/
theorem remove : Owned first (held.eraseIdx index) (now.prune x.place) := by
  obtain ⟨hindex, rfl⟩ := List.getElem?_eq_some_iff.mp hget
  have hperm := (List.getElem_cons_eraseIdx_perm hindex).symm
  have hx : held[index] ∈ held := List.getElem_mem hindex
  have hkept : ∀ y ∈ held.eraseIdx index, y ∈ held := fun y => List.mem_of_mem_eraseIdx
  obtain ⟨hother, hapart⟩ := List.pairwise_cons.mp
    ((hperm.pairwise_iff fun hne => Ne.symm hne).mp h.apart)
  have hfree := (h.fits _ hx).free
  have hne : held[index].place ≠ [] := held[index].entry.place_ne_nil
  refine ⟨h.home, fun y hy => h.fits y (hkept y hy), ?_, hapart, ?_, ?_⟩
  · intro y hy
    refine (h.stands y (hkept y hy)).of_same fun rest => Tree.find?_prune ?_ now
    intro hbelow
    have hfree' := (h.fits y (hkept y hy)).free
    exact hother y hy (hfree.eq_of_prefix hs hfree' hbelow (List.prefix_append _ rest))
  · intro place hplace
    by_cases hbelow : held[index].place <+: place
    · rw [Tree.find?_prune_below hne hbelow, hs.rooted.vacant_below hfree.vacant hbelow]
    · refine (Tree.find?_prune hbelow now).trans (h.rest place fun y hy => ?_)
      rcases List.mem_cons.mp (hperm.mem_iff.mp hy) with rfl | hmem
      · exact hbelow
      · exact hplace y hmem
  · refine h.sound.prune ?_
    rw [h.home]
    exact hfree.not_prefix_home hs

end

/-- A guard that is dropped removes what it has made. -/
theorem tree_drop {σ : Type} {w : World σ} (hx : x ∈ held) (hw : w.tree = now) :
    (x.guard.drop w).tree = now.prune x.place := by
  subst hw
  obtain ⟨node, hguards, hnode⟩ := (h.stands x hx).exists_node
  have hfits := h.fits x hx
  rcases Guard.tree_drop hguards hfits.slashless (h.leads hs hx) hfits.free.short
    h.sound.toGrounded with hgone | ⟨-, hother⟩
  · exact hgone
  · exact absurd hnode hother

/-- The names in the home are those that were there at first and those that guards stand for. -/
theorem mem_children (name : String) : name ∈ now.children now.home ↔
    name ∈ first.children first.home ∨ ∃ x ∈ held, x.entry = ⟨first.home, name⟩ := by
  rw [Tree.mem_children, Tree.mem_children, h.home]
  constructor
  · intro hthere
    by_cases hheld : ∃ x ∈ held, x.place <+: first.home ++ [name]
    · obtain ⟨x, hx, hbelow⟩ := hheld
      right
      rcases List.prefix_concat_iff.mp hbelow with heq | habove
      · obtain ⟨hdirectory, hname⟩ := List.append_inj' heq rfl
        refine ⟨x, hx, ?_⟩
        rw [← hdirectory, ← (List.cons.inj hname).1]
      · exact absurd habove ((h.fits x hx).free.not_prefix_home hs)
    · left
      rwa [h.rest _ fun x hx hbelow => hheld ⟨x, hx, hbelow⟩] at hthere
  · rintro (hthere | ⟨x, hx, hentry⟩)
    · obtain ⟨node, hnode⟩ := Option.isSome_iff_exists.mp hthere
      rw [(h.within hs).places _ _ hnode]
      rfl
    · obtain ⟨node, -, hnode⟩ := (h.stands x hx).exists_node
      have hplace : x.place = first.home ++ [name] := by
        unfold Holding.place
        rw [hentry]
        rfl
      rw [← hplace, hnode]
      rfl

end

end Owned

end Check

end ContainerCheck
