import ContainerCheck.Host.Path
import ContainerCheck.Text.Digits

namespace ContainerCheck.Host

open ContainerCheck.Text

structure IsName (name : String) : Prop where
  noSlash : '/' ∉ name.toList
  nonempty : name ≠ ""
  noDot : name ≠ "."
  noDots : name ≠ ".."

/-- A name that is longer than dots. -/
theorem IsName.of_long {name : String} (hslash : '/' ∉ name.toList)
    (hlong : 2 < name.toList.length) : IsName name where
  noSlash := hslash
  nonempty := by
    rintro rfl
    simp at hlong
  noDot := by
    rintro rfl
    simp at hlong
  noDots := by
    rintro rfl
    simp at hlong

theorem splitSlashes_of_noSlash {text : List Char} (h : '/' ∉ text) :
    splitSlashes text = [text] := by
  induction text with
  | nil => rfl
  | cons c rest ih =>
    rw [List.mem_cons, not_or] at h
    rw [splitSlashes, if_neg (Ne.symm h.1), ih h.2]

theorem splitSlashes_ne_nil (text : List Char) : splitSlashes text ≠ [] := by
  cases text with
  | nil => simp [splitSlashes]
  | cons c rest =>
    rw [splitSlashes]
    split
    · exact List.cons_ne_nil _ _
    · split <;> exact List.cons_ne_nil _ _

theorem splitSlashes_slash (text rest : List Char) :
    splitSlashes (text ++ '/' :: rest) = splitSlashes text ++ splitSlashes rest := by
  induction text with
  | nil => rfl
  | cons c text ih =>
    rw [List.cons_append, splitSlashes, splitSlashes, ih]
    split
    · rfl
    · cases hparts : splitSlashes text with
      | nil => exact absurd hparts (splitSlashes_ne_nil text)
      | cons part parts => rfl

theorem splitSlashes_append {part : List Char} (h : '/' ∉ part) (rest : List Char) :
    splitSlashes (part ++ '/' :: rest) = part :: splitSlashes rest := by
  rw [splitSlashes_slash, splitSlashes_of_noSlash h, List.singleton_append]

/-- Parts that are joined by slashes are split again. -/
theorem splitSlashes_intercalate {parts : List (List Char)} (hne : parts ≠ [])
    (h : ∀ part ∈ parts, '/' ∉ part) : splitSlashes (['/'].intercalate parts) = parts := by
  induction parts with
  | nil => exact absurd rfl hne
  | cons part parts ih =>
    have hpart := h part List.mem_cons_self
    cases parts with
    | nil =>
      rw [List.intercalate_singleton]
      exact splitSlashes_of_noSlash hpart
    | cons next parts =>
      rw [List.intercalate_cons_cons, List.append_assoc]
      have hrest := ih (by simp) fun q hq => h q (List.mem_cons_of_mem _ hq)
      rw [List.singleton_append, splitSlashes_append hpart, hrest]

theorem toList_pathOf (place : Place) :
    (pathOf place).toList = '/' :: ['/'].intercalate (place.map String.toList) := by
  unfold pathOf
  rw [String.toList_append, String.toList_intercalate]
  rfl

theorem isAbsolute_pathOf (place : Place) : isAbsolute (pathOf place) = true := by
  unfold isAbsolute
  rw [toList_pathOf]
  rfl

/-- The names in the path of a place are those of the place. -/
theorem namesOf_pathOf {place : Place} (h : ∀ name ∈ place, IsName name) :
    namesOf (pathOf place) = place := by
  unfold namesOf
  rw [toList_pathOf]
  have hsplit : splitSlashes ('/' :: ['/'].intercalate (place.map String.toList)) =
      [] :: splitSlashes (['/'].intercalate (place.map String.toList)) := by
    rw [splitSlashes, if_pos rfl]
  rw [hsplit]
  by_cases hne : place = []
  · subst hne
    rfl
  · have hparts : ∀ part ∈ place.map String.toList, '/' ∉ part := by
      intro part hpart
      obtain ⟨name, hname, rfl⟩ := List.mem_map.mp hpart
      exact (h name hname).noSlash
    have hkeep : (place.map String.toList).filter (· ≠ []) = place.map String.toList := by
      rw [List.filter_eq_self]
      intro part hpart
      obtain ⟨name, hname, rfl⟩ := List.mem_map.mp hpart
      have hnonempty := (h name hname).nonempty
      simpa using hnonempty
    rw [splitSlashes_intercalate (by simpa using hne) hparts, List.filter_cons_of_neg (by simp),
      hkeep, List.map_map]
    simp

theorem endsInSlash_append {text : String} {name : String} (h : IsName name) :
    endsInSlash (text ++ name) = false := by
  unfold endsInSlash
  have hne : name.toList ≠ [] := by simpa using h.nonempty
  rw [String.toList_append, List.getLast?_append, List.getLast?_eq_some_getLast hne]
  have hlast : name.toList.getLast hne ≠ '/' := by
    intro heq
    apply h.noSlash
    rw [← heq]
    exact List.getLast_mem hne
  simpa using hlast

theorem pathOf_concat (place : Place) (name : String) :
    pathOf (place ++ [name]) =
      if place = [] then "/" ++ name else pathOf place ++ "/" ++ name := by
  unfold pathOf
  split
  · next h => rw [h, List.nil_append, String.intercalate_singleton]
  · next h =>
    rw [String.intercalate_append_of_ne_nil h (by simp), String.intercalate_singleton,
      ← String.append_assoc, ← String.append_assoc]

/-- A longer path in the same directory. -/
theorem pathOf_concat_append (place : Place) (name suffix : String) :
    pathOf (place ++ [name]) ++ suffix = pathOf (place ++ [name ++ suffix]) := by
  rw [pathOf_concat, pathOf_concat]
  split
  · rw [String.append_assoc]
  · rw [String.append_assoc]

theorem endsInSlash_pathOf_concat {place : Place} {name : String} (h : IsName name) :
    endsInSlash (pathOf (place ++ [name])) = false := by
  rw [pathOf_concat]
  split
  · exact endsInSlash_append h
  · exact endsInSlash_append h

theorem IsName.isAbsolute {name : String} (h : IsName name) : isAbsolute name = false := by
  have hhead : name.toList.head? ≠ some '/' := fun heq => h.noSlash (List.mem_of_head? heq)
  simpa [Host.isAbsolute] using hhead

/-- A name in a place, as a path. -/
theorem joinPath_pathOf {place : Place} (hplace : ∀ name ∈ place, IsName name) {name : String}
    (hname : IsName name) : joinPath (pathOf place) name = pathOf (place ++ [name]) := by
  have hne : pathOf place ≠ "" := by
    intro heq
    have htext := toList_pathOf place
    rw [heq] at htext
    cases htext
  unfold joinPath
  rw [hname.isAbsolute, if_neg (by simp), if_neg hne, pathOf_concat]
  by_cases hroot : place = []
  · subst hroot
    rfl
  -- The path of any other place ends in a name, and so in no slash.
  · obtain ⟨init, last, rfl⟩ := (List.eq_nil_or_concat place).resolve_left hroot
    have hlast := hplace last (by simp)
    rw [if_neg hroot]
    simp [List.concat_eq_append, endsInSlash_pathOf_concat hlast]

theorem isAbsolute_append {path : String} (h : path ≠ "") (more : String) :
    isAbsolute (path ++ more) = isAbsolute path := by
  have hne : path.toList ≠ [] := fun hnil => h (String.toList_eq_nil_iff.mp hnil)
  obtain ⟨c, rest, htext⟩ := List.exists_cons_of_ne_nil hne
  simp [isAbsolute, String.toList_append, htext]

theorem isAbsolute_joinPath {directory : String} (h : isAbsolute directory = true) (path : String) :
    isAbsolute (joinPath directory path) = true := by
  have hne : directory ≠ "" := by
    rintro rfl
    cases h
  unfold joinPath
  rw [if_neg hne]
  split
  · next hpath => exact hpath
  · split
    · rw [isAbsolute_append hne, h]
    · rw [String.append_assoc, isAbsolute_append hne, h]

/-- A name in a directory that a path names without a slash behind it. -/
theorem joinPath_name {path name : String} (hpath : path ≠ "") (hslash : endsInSlash path = false)
    (hname : IsName name) : joinPath path name = path ++ "/" ++ name := by
  unfold joinPath
  simp [hname.isAbsolute, hpath, hslash]

theorem namesOf_slash (path : String) {name : String} (hname : IsName name) :
    namesOf (path ++ "/" ++ name) = namesOf path ++ [name] := by
  have htext : (path ++ "/" ++ name).toList = path.toList ++ '/' :: name.toList := by
    simp [String.toList_append]
  have hne : name.toList ≠ [] := by simpa using hname.nonempty
  unfold namesOf
  rw [htext, splitSlashes_slash, splitSlashes_of_noSlash hname.noSlash, List.filter_append]
  simp [hne]

theorem namesOf_pathOf_concat {place : Place} (hplace : ∀ name ∈ place, IsName name) {name : String}
    (hname : IsName name) : namesOf (pathOf (place ++ [name])) = place ++ [name] := by
  apply namesOf_pathOf
  intro other hother
  rcases List.mem_append.mp hother with h | h
  · exact hplace other h
  · rw [List.mem_singleton.mp h]
    exact hname

theorem walkOf_pathOf_concat {place : Place} (hplace : ∀ name ∈ place, IsName name) {name : String}
    (hname : IsName name) : walkOf (pathOf (place ++ [name])) = ⟨true, place ++ [name]⟩ := by
  unfold walkOf
  rw [namesOf_pathOf_concat hplace hname, isAbsolute_pathOf, endsInSlash_pathOf_concat hname]
  simp

end ContainerCheck.Host
