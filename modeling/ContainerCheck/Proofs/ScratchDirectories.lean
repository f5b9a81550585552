import ContainerCheck.Proofs.MemoryRuntime
import ContainerCheck.Proofs.ScratchFiles

namespace ContainerCheck

open ContainerCheck.Cri ContainerCheck.Host ContainerCheck.Check ContainerCheck.Session
open ContainerCheck.Text ContainerCheck.Host.Tree

def IsNameText (text : List Char) : Prop := ∀ c ∈ text, c ≠ '/' ∧ c ≠ '\x00' ∧ c.utf8Size = 1

instance (text : List Char) : Decidable (IsNameText text) :=
  List.decidableBAll _ text

namespace IsNameText

variable {text more : List Char}

theorem append (h : IsNameText text) (hmore : IsNameText more) : IsNameText (text ++ more) := by
  intro c hc
  rcases List.mem_append.mp hc with hmem | hmem
  · exact h c hmem
  · exact hmore c hmem

theorem of_digits (h : ∀ c ∈ text, c.isDigit = true) : IsNameText text := by
  intro c hc
  have hdigit := h c hc
  refine ⟨?_, ?_, ?_⟩
  · rintro rfl
    cases hdigit
  · rintro rfl
    cases hdigit
  · simp only [Char.isDigit, Bool.and_eq_true, decide_eq_true_eq] at hdigit
    rw [Char.utf8Size_eq_one_iff]
    exact Nat.le_trans hdigit.2 (by decide)

theorem byteLength_eq (h : IsNameText text) : byteLength text = text.length := by
  induction text with
  | nil => rfl
  | cons c text ih =>
    have hrest := ih fun d hd => h d (List.mem_cons_of_mem c hd)
    rw [byteLength_cons, (h c List.mem_cons_self).2.2, hrest, List.length_cons, Nat.add_comm]

/-- A name of three characters or more is none of those that mean a directory. -/
theorem isShortName {name : String} (h : IsNameText name.toList) (hlong : 2 < name.toList.length)
    (hshort : name.toList.length ≤ longestName) : Tree.IsShortName name where
  toIsName := .of_long (fun hmem => (h '/' hmem).1 rfl) hlong
  short := h.byteLength_eq ▸ hshort
  noNul hmem := (h '\x00' hmem).2.1 rfl

end IsNameText

/-- A name of a temporary directory that leaves room for the name of a link to it. -/
structure IsScratchName (name : String) : Prop extends Tree.IsShortName name where
  temporary : Tree.IsTemporary name
  link : Tree.IsShortName (name ++ "-symlink")
  temporaryLink : Tree.IsTemporary (name ++ "-symlink")

/-- A stem that is short enough for the names that begin with it. -/
structure IsScratchStem (stem : String) : Prop where
  text : IsNameText stem.toList
  short : stem.toList.length ≤ 200
  stem : Tree.IsStem stem

theorem isScratchName_fresh {stem : String} (h : IsScratchStem stem) (n : Nat) :
    IsScratchName (stem ++ World.freshSuffix n) := by
  have hsuffix : IsNameText (World.freshSuffix n).toList := by
    have hlead : IsNameText ['Z', 'q'] := by decide
    have hdigits : IsNameText (fixed 4 n) := .of_digits fun c hc => isDigit_of_mem_fixed hc
    rw [World.toList_freshSuffix]
    exact hlead.append hdigits
  have hlength : (stem ++ World.freshSuffix n).toList.length = stem.toList.length + 6 := by
    rw [String.toList_append, List.length_append, World.toList_freshSuffix]
    simp
  have htext : IsNameText (stem ++ World.freshSuffix n).toList := by
    rw [String.toList_append]
    exact h.text.append hsuffix
  have hlink : (stem ++ World.freshSuffix n ++ "-symlink").toList.length =
      stem.toList.length + 14 := by
    rw [String.toList_append, List.length_append, hlength]
    rfl
  have hshort := h.short
  refine ⟨htext.isShortName (by omega) (by unfold longestName; omega), ⟨_, n, h.stem, .inl rfl⟩, ?_,
    ⟨_, n, h.stem, .inr rfl⟩⟩
  refine IsNameText.isShortName ?_ (by omega) (by unfold longestName; omega)
  rw [String.toList_append]
  exact htext.append (by decide)

theorem isScratchStem_log : IsScratchStem "podLogTest" :=
  ⟨by decide, by decide, .inl rfl⟩

/-- Host paths are called after the sandbox that they are for. -/
theorem isScratchStem_pod {n : Nat} (hn : n < idNumbers) :
    IsScratchStem ("test" ++ ("pod-" ++ toString n)) := by
  have hdigits : (toString n).toList = decimal n := String.toList_ofList
  have hlength : (decimal n).length ≤ 20 :=
    (Nat.length_toDigits_le_iff (by decide) (by decide)).mpr (Nat.lt_of_lt_of_le hn (by decide))
  refine ⟨?_, ?_, .inr ⟨n, rfl⟩⟩
  · rw [String.toList_append, String.toList_append, hdigits]
    exact IsNameText.append (by decide)
      (.append (by decide) (.of_digits fun c hc => isDigit_of_mem_decimal hc))
  · rw [String.toList_append, String.toList_append, hdigits]
    simp only [List.length_append]
    have hpod : "test".toList.length = 4 ∧ "pod-".toList.length = 4 := by decide
    omega

theorem isScratchStem_owner {directory : Option String} {fixture : Fixture}
    (h : Harness.IsPod directory fixture) : IsScratchStem ("test" ++ fixture.id.text) := by
  obtain ⟨n, hn, hid⟩ := h.id
  rw [hid]
  exact isScratchStem_pod hn

namespace Check

variable {tree : Tree} {sandboxes : List (SandboxId × SandboxConfig)}
  {containers : List MemoryContainer} {σ : Type}

/-- A name that is free is drawn at once. -/
theorem makeTemporary_free {parent stem : String} {w : World σ} {made : Tree}
    (h : w.tree.makeDirectory (joinPath parent (stem ++ World.freshSuffix w.drawn)) = .ok made)
    (attempts : Nat) :
    w.makeTemporary parent stem (attempts + 1) =
      (.ok (joinPath parent (stem ++ World.freshSuffix w.drawn)),
        { w with drawn := w.drawn + 1 }.setTree made) := by
  unfold World.makeTemporary
  dsimp only
  rw [h]

/-- Nothing is in a directory that has just been made. -/
theorem find?_fresh (hr : tree.Roomy) {name : String} (hname : IsScratchName name) (file : String) :
    (tree.put (tree.home ++ [name]) .directory).find? (tree.home ++ [name] ++ [file]) = none := by
  rw [find?_put tree (List.concat_ne_nil _ _), if_neg (by simp)]
  exact hr.vacant name _ hname.temporary (List.prefix_append _ _)

theorem isShortName_flagFile : IsShortName flagFile :=
  IsNameText.isShortName (by decide) (by decide) (by decide)

structure IsHostPath (tree : Tree) (name : String) (now : Tree) : Prop
    extends tree.Scratch name now where
  scratchName : IsScratchName name
  flag : now.find? (tree.home ++ [name] ++ [flagFile]) = some (.file [])

def linkedTree (tree : Tree) (name : String) (now : Tree) : Tree :=
  now.put (tree.home ++ [name ++ "-symlink"]) (.link (pathOf (tree.home ++ [name])))

theorem symlink_ne (name : String) : name ++ "-symlink" ≠ name := by
  intro heq
  have hlength := congrArg (fun text : String => text.toList.length) heq
  simp at hlength

/-- What a host path holds is listed through the link, the flag file among it. -/
theorem IsHostPath.list_linked {name : String} {now : Tree} (h : IsHostPath tree name now)
    (hr : tree.Roomy) : ∃ names, names ≠ [] ∧
      (linkedTree tree name now).list (pathOf (tree.home ++ [name ++ "-symlink"])) = .ok names := by
  have hname := h.scratchName
  have hflag : (linkedTree tree name now).find? (tree.home ++ [name] ++ [flagFile]) =
      some (.file []) := by
    have hother : tree.home ++ [name] ++ [flagFile] ≠ tree.home ++ [name ++ "-symlink"] := by
      simp
    exact (find?_put now (List.concat_ne_nil _ _) _ _).trans ((if_neg hother).trans h.flag)
  exact ⟨_, listing_ne_nil hflag,
    h.list_link hr hname.toIsShortName hname.link (symlink_ne name) rfl⟩

section

variable (hr : tree.Roomy)
include hr

theorem leads_makeTemporary {stem : String} (hstem : IsScratchStem stem) :
    Leads (Store.Shows tree sandboxes containers) (Session.makeTemporary stem) fun path store =>
      ∃ name, (IsScratchName name ∧ path = pathOf (tree.home ++ [name])) ∧
        store.Shows (tree.put (tree.home ++ [name]) .directory) sandboxes containers := by
  intro w hcalm hw
  let drawn : World Memory := { w.noteNow (.makeTemporary stem) with drawn := w.drawn + 1 }
  have hname := isScratchName_fresh hstem w.drawn
  have hpath : joinPath w.home (stem ++ World.freshSuffix w.drawn) =
      pathOf (tree.home ++ [stem ++ World.freshSuffix w.drawn]) := by
    rw [World.home, World.tree, hw.tree, joinPath_pathOf hr.grounded.isName hname.toIsName]
  have hmade : w.tree.makeDirectory (joinPath w.home (stem ++ World.freshSuffix w.drawn)) =
      .ok (tree.put (tree.home ++ [stem ++ World.freshSuffix w.drawn]) .directory) := by
    rw [hpath, World.tree, hw.tree]
    exact makeDirectory_roomy hr hname.toIsShortName hname.temporary
  have hfree : (w.noteNow (.makeTemporary stem)).makeTemporary w.home stem World.nameAttempts =
      (.ok (joinPath w.home (stem ++ World.freshSuffix w.drawn)), drawn.setTree _) :=
    makeTemporary_free (w := w.noteNow (.makeTemporary stem)) hmade 65535
  refine ⟨_, drawn.setTree _, ?_, hcalm, _, ⟨hname, hpath⟩, hw.setTree _⟩
  unfold Session.makeTemporary
  rw [hfree]
  rfl

theorem leads_create {owner : String} (howner : IsScratchStem ("test" ++ owner)) :
    Leads (Store.Shows tree sandboxes []) (HostPath.create owner) fun path store =>
      ∃ name now, (IsHostPath tree name now ∧ path = pathOf (tree.home ++ [name])) ∧
        store.Shows now sandboxes [] := by
  refine (leads_makeTemporary hr howner).bind fun path => .of_exists fun name => .of_and ?_
  rintro ⟨hname, rfl⟩
  have hfile : IsHomePath (tree.home ++ [name]) flagFile
      (pathOf (tree.home ++ [name] ++ [flagFile])) :=
    hr.isFilePath hname.toIsShortName isShortName_flagFile
  have hmade := scratch_put hr hname.toIsShortName
  have hjoin : joinPath (pathOf (tree.home ++ [name])) flagFile =
      pathOf (tree.home ++ [name] ++ [flagFile]) :=
    joinPath_pathOf hmade.stands.isName hfile.isName
  have hflag : (tree.put (tree.home ++ [name]) .directory).write
      (pathOf (tree.home ++ [name] ++ [flagFile])) [] = .ok
        ((tree.put (tree.home ++ [name]) .directory).put (tree.home ++ [name] ++ [flagFile])
          (.file [])) :=
    store_free hmade.stands hfile (find?_fresh hr hname flagFile) fun _ => []
  refine Leads.orDiscard ?_ _
  rw [hjoin]
  refine (leads_changeShown hflag).bind fun _ => .pure fun store h =>
    ⟨name, _, ⟨⟨?_, hname, ?_⟩, rfl⟩, h⟩
  · exact hmade.put flagFile (.file [])
  · exact (find?_put _ (List.concat_ne_nil _ _) _ _).trans (if_pos rfl)

/-- A temporary directory that is discarded is gone, and all else is as it was. -/
theorem discard_scratch {name : String} (hname : IsScratchName name) {w : World σ}
    (h : tree.Scratch name w.tree) :
    ∃ after, w.discard (pathOf (tree.home ++ [name])) = w.setTree after ∧ tree.Alike after := by
  obtain ⟨after, hremove, halike⟩ := h.removeAll hr hname.toIsShortName hname.temporary
  refine ⟨after, ?_, halike⟩
  unfold World.discard
  rw [hremove]

theorem leads_withDirectory {fixture : Fixture} {owner : String}
    {body : String → Session Memory Unit} (howner : IsScratchStem ("test" ++ owner))
    (hbody : ∀ name now, IsHostPath tree name now →
      Leads (Store.Shows now [(fixture.id, fixture.config)] [])
        (body (pathOf (tree.home ++ [name])))
        fun _ => Store.Hosts (tree.Scratch name) fixture) :
    Leads (Store.Shows tree [(fixture.id, fixture.config)] [])
      (HostPath.withDirectory owner body) fun _ => Store.Hosts tree.Alike fixture := by
  refine (leads_create hr howner).bind fun path => .of_exists fun name => .of_exists fun now =>
    .of_and ?_
  rintro ⟨hpath, rfl⟩
  refine (hbody name now hpath).ensuring ?_
  rintro ⟨⟩ w hcalm ⟨after, containers, hscratch, hinside, hw⟩
  obtain ⟨gone, hdiscard, halike⟩ := discard_scratch hr hpath.scratchName (hw.tree ▸ hscratch)
  simp only [Guard.drop, hdiscard]
  exact ⟨hcalm, gone, containers, halike, hinside, hw.setTree gone⟩

/-- The link is made beside its directory. -/
theorem leads_link {fixture : Fixture} {name : String} {now : Tree}
    (hpath : IsHostPath tree name now) :
    Leads (Store.Shows now [(fixture.id, fixture.config)] [])
      (HostPath.link (pathOf (tree.home ++ [name]))) fun path store =>
        path = pathOf (tree.home ++ [name ++ "-symlink"]) ∧
          store.Shows (linkedTree tree name now) [(fixture.id, fixture.config)] [] := by
  have hname := hpath.scratchName
  have hmade := hpath.makeLink hr hname.toIsShortName hname.link (symlink_ne name)
    hname.temporaryLink
  unfold HostPath.link
  rw [linkPath_pathOf]
  exact (leads_changeShown hmade).bind fun _ => .pure fun store h => ⟨rfl, h⟩

theorem leads_withLink {fixture : Fixture} {body : String → Session Memory Unit} {name : String}
    {now : Tree} (hpath : IsHostPath tree name now)
    (hbody : Leads (Store.Shows (linkedTree tree name now) [(fixture.id, fixture.config)] [])
      (body (pathOf (tree.home ++ [name ++ "-symlink"])))
      fun _ => Store.Hosts (Eq (linkedTree tree name now)) fixture) :
    Leads (Store.Shows now [(fixture.id, fixture.config)] [])
      (HostPath.withLink (pathOf (tree.home ++ [name])) body)
      fun _ => Store.Hosts (tree.Scratch name) fixture := by
  have hname := hpath.scratchName
  refine (leads_link hr hpath).bind fun path => .of_and ?_
  rintro rfl
  refine hbody.ensuring ?_
  rintro ⟨⟩ w hcalm ⟨after, containers, rfl, hinside, hw⟩
  obtain ⟨gone, hremove, halike⟩ :=
    hpath.removeLink hr hname.link (symlink_ne name) hname.temporaryLink
      (pathOf (tree.home ++ [name]))
  have hdiscard : w.discardFile (pathOf (tree.home ++ [name ++ "-symlink"])) = w.setTree gone := by
    unfold World.discardFile
    rw [World.tree, hw.tree, linkedTree, hremove]
  simp only [Guard.drop, hdiscard]
  exact ⟨hcalm, gone, containers, hpath.toScratch.alike halike, hinside, hw.setTree gone⟩

end

end Check

end ContainerCheck
