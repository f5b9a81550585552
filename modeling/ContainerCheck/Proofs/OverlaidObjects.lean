import ContainerCheck.Proofs.ObjectLines
import ContainerCheck.Proofs.PrintedJson

namespace ContainerCheck.Json

open ContainerCheck.Text

section

variable {digits rest : List Char}

theorem le_foldl_digits (digits : List Char) (value : Nat) :
    value ≤ digits.foldl (fun n c => 10 * n + digitValue c) value := by
  induction digits generalizing value with
  | nil => exact Nat.le_refl value
  | cons c digits ih =>
    have hmore := ih (10 * value + digitValue c)
    rw [List.foldl_cons]
    omega

/-- Digits whose value fits a word are all appended. -/
theorem appendDigits_of_lt (value : Nat)
    (h : digits.foldl (fun n c => 10 * n + digitValue c) value < wordLimit) :
    appendDigits value digits = (digits.foldl (fun n c => 10 * n + digitValue c) value, []) := by
  induction digits generalizing value with
  | nil => rfl
  | cons c digits ih =>
    rw [List.foldl_cons] at h ⊢
    have hlt := Nat.lt_of_le_of_lt (le_foldl_digits digits _) h
    rw [Nat.mul_comm] at hlt
    rw [appendDigits, if_pos hlt, Nat.mul_comm value, ih _ h]

theorem readNumeral_whole {whole : List Char} (h : WholeText whole) (hrest : StopsDigits rest)
    (negative : Bool) : readNumeral negative (whole ++ rest) = readRest negative whole rest := by
  cases h with
  | zero =>
    rw [List.cons_append, List.nil_append, readNumeral, if_pos rfl, hrest.head]
    rfl
  | @digits c more hc hne hmore =>
    have hall : ∀ d ∈ c :: more, d.isDigit = true := List.forall_mem_cons.mpr ⟨hc, hmore⟩
    have htake := takeWhile_digits hall hrest
    have hdrop := dropWhile_digits hall hrest
    rw [List.cons_append] at htake hdrop ⊢
    rw [readNumeral, if_neg hne, if_pos hc, htake, hdrop]

/-- A number without a fraction or an exponent keeps its value. -/
theorem readRest_whole (hvalue : digitsValue digits < wordLimit) (hrest : Stops rest) :
    readRest false digits rest = .ok (.whole (digitsValue digits), rest) := by
  have happend : appendDigits 0 digits = (digitsValue digits, []) := appendDigits_of_lt 0 hvalue
  simp only [readRest, happend]
  split
  · exact absurd (hrest '.' rfl) (by decide)
  · exact absurd (hrest 'e' rfl) (by decide)
  · exact absurd (hrest 'E' rfl) (by decide)
  · rfl

/-- A number has no leading zeros. -/
theorem wholeText_decimal (n : Nat) : WholeText (decimal n) := by
  induction n using Nat.strongRecOn with
  | ind n ih =>
    by_cases h : n < 10
    · rw [decimal_of_lt h]
      interval_cases n
      · exact .zero
      all_goals exact .digits (by decide) (by decide) nofun
    · have hlast : (n % 10).digitChar.isDigit = true := by
        rw [Nat.isDigit_digitChar, decide_eq_true_eq]
        omega
      have hfront := ih (n / 10) (by omega)
      have hvalue := digitsValue_decimal (n / 10)
      rw [decimal_of_ge (by omega)]
      generalize decimal (n / 10) = front at hfront hvalue
      cases hfront with
      | zero =>
        have hzero : digitsValue ['0'] = 0 := rfl
        omega
      | digits hc hne hmore =>
        refine .digits hc hne (List.forall_mem_append.mpr ⟨hmore, ?_⟩)
        exact List.forall_mem_singleton.mpr hlast

theorem jsonText_decimal (n : Nat) : JsonText .value (decimal n) := by
  have hnumeral := NumeralText.mk (wholeText_decimal n) .none .none
  rw [List.append_nil, List.append_nil] at hnumeral
  exact .number hnumeral

end

/-- A reader takes a value from a written text in front of which no number could go on. -/
def Reader.TakesStopped {α : Type} (read : Reader α) (written : List Char) (value : α) : Prop :=
  ∀ spaces rest, IsSpaces spaces → Stops rest →
    read (spaces ++ (written ++ rest)) = .ok (value, rest)

theorem Reader.Takes.stopped {α : Type} {read : Reader α} {written : List Char} {value : α}
    (h : read.Takes written value) : read.TakesStopped written value :=
  fun spaces rest hspaces _ => h spaces rest hspaces

/-- A number below the limit is read. -/
theorem Reader.natBelow_takesStopped {n limit : Nat} (expected : String) (h : n < limit)
    (hlimit : limit ≤ wordLimit) : (Reader.natBelow limit expected).TakesStopped (decimal n) n := by
  intro spaces rest hspaces hrest
  have hword : digitsValue (decimal n) < wordLimit := by
    rw [digitsValue_decimal]
    exact Nat.lt_of_lt_of_le h hlimit
  have hread : readNumeral false (decimal n ++ rest) = .ok (.whole n, rest) := by
    rw [readNumeral_whole (wholeText_decimal n) hrest.stopsDigits, readRest_whole hword hrest,
      digitsValue_decimal]
  obtain ⟨c, digits, hcons, hc⟩ := (wholeText_decimal n).begins
  rw [hcons, List.cons_append] at hread ⊢
  rw [natBelow, skipSpaces_next hspaces (isSpace_of_isDigit hc)]
  simp only [ne_of_isDigit hc (show '-'.isDigit = false from rfl), hc, if_false, if_true, hread, h]

theorem Field.of_takesStopped {α β : Type} {read : Reader β} {written : List Char} {value : β}
    (h : read.TakesStopped written value) (name : String) (set : α → β → α) :
    (Field.of name read set).read.TakesStopped written fun draft => set draft value := by
  intro spaces rest hspaces hrest
  simp only [Field.of, h spaces rest hspaces hrest]

namespace Shape

variable {α : Type} (shape : Shape α) {change : α → α}

/-- A member makes a change as a field does that is known under its key, or it is no field. -/
def Changes (member : Log.RawMember) (change : α → α) : Prop :=
  (∃ field, shape.find? member.1 = some field ∧ field.read.TakesStopped member.2 change) ∨
    shape.find? member.1 = none ∧ change = id

variable {fuel : Nat} {first : Bool} {given : List String} {lead rest : List Char}

/-- A member that is read makes its change, unless its field has been given before. -/
theorem readObject_change {member : Log.RawMember} {text : List Char}
    (hmember : MemberText Eq member text) (hvalue : JsonText .value member.2)
    (hchanges : shape.Changes member change) (hlead : Leads first lead)
    (hfresh : member.1 ∈ given → shape.find? member.1 = none) :
    ∃ given' after, given' ⊆ member.1 :: given ∧ IsSpaces after ∧
      ∀ fuel draft tail, Stops (after ++ tail) →
        shape.readObject (fuel + 1) first given draft (lead ++ (text ++ tail)) =
          shape.readObject fuel false given' (change draft) (after ++ tail) := by
  obtain ⟨behind, spaces, _, after, hspaces, rfl, hafter, hread⟩ :=
    shape.readObject_key hmember hlead
  rcases hchanges with ⟨field, hfield, htakes⟩ | ⟨hnone, rfl⟩
  · refine ⟨member.1 :: given, after, List.Subset.refl _, hafter, fun fuel draft tail hstops => ?_⟩
    have hnot : member.1 ∉ given := fun hmem => by
      rw [hfresh hmem] at hfield
      cases hfield
    have hcontains : given.contains member.1 = false := by simpa using hnot
    rw [hread, hfield]
    simp only [shape.name_of_find? hfield, hcontains, Bool.false_eq_true, if_false, bind,
      Except.bind, htakes spaces (after ++ tail) hspaces hstops]
  · refine ⟨given, after, List.subset_cons_self _ _, hafter, fun fuel draft tail hstops => ?_⟩
    rw [hread, hnone]
    simp only [skipValue_jsonText hvalue hspaces hstops, bind, Except.bind, id]

/-- The changes that members make, none of which gives a field again. -/
structure Overlay (members : List Log.RawMember) (change : Log.RawMember → α → α) : Prop where
  changes : ∀ member ∈ members, shape.Changes member (change member)
  single : members.Pairwise fun member later =>
    member.1 = later.1 → shape.find? member.1 = none

theorem missing?_of_defaulted (h : shape.defaulted = true) (given : List String) :
    shape.missing? given = none := if_pos h

/-- The members of an object make their changes one after the other. -/
theorem readObject_overlay (hdefaulted : shape.defaulted = true) {members : List Log.RawMember}
    {body : List Char} (hbody : MembersText Eq members body)
    (hvalues : ∀ member ∈ members, JsonText .value member.2)
    {change : Log.RawMember → α → α} (hoverlay : shape.Overlay members change)
    (hfresh : ∀ member ∈ members, member.1 ∈ given → shape.find? member.1 = none)
    (hlead : Leads first lead) (hfuel : members.length < fuel) (draft : α) (rest : List Char) :
    shape.readObject fuel first given draft (lead ++ (body ++ '\x7d' :: rest)) =
      .ok (members.foldl (fun draft member => change member draft) draft, rest) := by
  obtain ⟨hchanges, hsingle⟩ := hoverlay
  induction hbody generalizing fuel first given lead draft with
  | @last member text h =>
    obtain ⟨fuel, rfl⟩ := Nat.exists_eq_add_of_lt hfuel
    obtain ⟨given', after, -, hafter, hstep⟩ := shape.readObject_change h
      (hvalues member List.mem_cons_self) (hchanges member List.mem_cons_self) hlead
      (hfresh member List.mem_cons_self)
    have hstops : Stops (after ++ '\x7d' :: rest) := stops_of_isSpaces hafter (by decide)
    rw [List.length_singleton, Nat.add_comm 1 fuel, hstep _ _ _ hstops]
    exact shape.readObject_closed hafter _ rest (shape.missing?_of_defaulted hdefaulted _)
  | @more member members text tail h htail ih =>
    obtain ⟨fuel, rfl⟩ := Nat.exists_eq_succ_of_ne_zero (Nat.ne_zero_of_lt hfuel)
    rw [List.forall_mem_cons] at hvalues hchanges hfresh
    rw [List.pairwise_cons] at hsingle
    obtain ⟨given', after, hgiven, hafter, hstep⟩ :=
      shape.readObject_change h hvalues.1 hchanges.1 hlead hfresh.1
    have hstops : Stops (after ++ ',' :: (tail ++ '\x7d' :: rest)) :=
      stops_of_isSpaces hafter (by decide)
    -- What the member has given is not given again, and what was given before is not either.
    have hfresh' : ∀ later ∈ members, later.1 ∈ given' → shape.find? later.1 = none := by
      intro later hlater hmem
      rcases List.mem_cons.mp (hgiven hmem) with hsame | hbefore
      · rw [hsame]
        exact hsingle.1 later hlater hsame.symm
      · exact hfresh.2 later hlater hbefore
    have hmore := ih hvalues.2 hfresh' (leads_comma hafter) (Nat.lt_of_succ_lt_succ hfuel)
      (change member draft) hchanges.2 hsingle.2
    rw [List.append_assoc, List.cons_append, hstep _ _ _ hstops, List.foldl_cons, ← hmore,
      List.append_assoc]
    rfl

theorem read_overlay (hdefaulted : shape.defaulted = true) {members : List Log.RawMember}
    {change : Log.RawMember → α → α} (hoverlay : shape.Overlay members change)
    {object : List Char} (hobject : Log.RawObject members object) (rest : List Char) :
    shape.read (object ++ rest) =
      .ok (members.foldl (fun draft member => change member draft) shape.blank, rest) := by
  cases hobject with
  | empty hspaces =>
    rw [List.cons_append, List.append_assoc, read_brace]
    exact shape.readObject_closed hspaces _ rest (shape.missing?_of_defaulted hdefaulted _)
  | @full _ body hbody hvalues =>
    have hlength := length_le_of_membersText hbody
    have hfuel : members.length < (body ++ '\x7d' :: rest).length + 1 := by
      rw [List.length_append]
      omega
    rw [List.cons_append, List.append_assoc, read_brace]
    exact shape.readObject_overlay hdefaulted hbody hvalues hoverlay
      (fun _ _ h => absurd h List.not_mem_nil) leads_nil hfuel shape.blank rest

/-- An object is read as what its members make of the defaults. -/
theorem parse_overlay (hdefaulted : shape.defaulted = true) {members : List Log.RawMember}
    {change : Log.RawMember → α → α} (hoverlay : shape.Overlay members change)
    {text : List Char} (htext : Spaced (Log.RawObject members) text) :
    parse shape.read text =
      .ok (members.foldl (fun draft member => change member draft) shape.blank) := by
  obtain ⟨before, _, after, hbefore, hobject, hafter, rfl⟩ := htext
  rw [parse_eq_ok_iff, shape.read_behind_spaces hbefore]
  exact ⟨after, shape.read_overlay hdefaulted hoverlay hobject after,
    skipSpaces_of_isSpaces hafter⟩

end Shape

inductive PlainText : Value → List Char → Prop
  | number (n : Nat) : PlainText (.number n) (decimal n)
  | string {text : String} {written : List Char} (h : StringText text written) :
    PlainText (.string text) written

theorem PlainText.json {value : Value} {written : List Char} (h : PlainText value written) :
    JsonText .value written := by
  cases h with
  | number n => exact jsonText_decimal n
  | string h => exact Log.jsonText_of_stringText h

theorem Reader.nat64_takesStopped {n : Nat} {written : List Char}
    (h : PlainText (.number n) written) (hn : n < Nat.pow 2 64) :
    Reader.nat64.TakesStopped written n := by
  cases h
  exact Reader.natBelow_takesStopped "u64" hn (Nat.le_refl _)

theorem Reader.nat32_takesStopped {n : Nat} {written : List Char}
    (h : PlainText (.number n) written) (hn : n < Nat.pow 2 32) :
    Reader.nat32.TakesStopped written n := by
  cases h
  exact Reader.natBelow_takesStopped "u32" hn (Nat.pow_le_pow_right (by decide) (by decide))

theorem Reader.string_takesStopped {text : String} {written : List Char}
    (h : PlainText (.string text) written) : Reader.string.TakesStopped written text := by
  cases h with
  | string h => exact (Reader.named_takes "a string" h).stopped

theorem MembersText.map {β γ : Type} {Written : β → List Char → Prop}
    {Written' : γ → List Char → Prop} {f : β → γ} {members : List (String × β)} {body : List Char}
    (hbody : MembersText Written members body)
    (h : ∀ item written, Written item written → Written' (f item) written) :
    MembersText Written' (members.map fun member => (member.1, f member.2)) body := by
  have hmember {member : String × β} {text : List Char} (hmember : MemberText Written member text) :
      MemberText Written' (member.1, f member.2) text := by
    obtain ⟨key, _, hkey, ⟨before, written, after, hbefore, hwritten, hafter, rfl⟩, rfl⟩ := hmember
    exact ⟨key, _, hkey, ⟨before, written, after, hbefore, h _ _ hwritten, hafter, rfl⟩, rfl⟩
  induction hbody with
  | last htext => exact .last (hmember htext)
  | more htext _ ih => exact .more (hmember htext) ih

/-- A printed object has the printed values as its members. -/
theorem rawObject_chars {members : List (String × Value)}
    (h : ∀ member ∈ members, JsonText .value member.2.chars) :
    Log.RawObject (members.map fun member => (member.1, member.2.chars))
      (Value.object members).chars := by
  rw [Value.chars]
  cases members with
  | nil =>
    have hnone : IsSpaces [] := nofun
    exact .empty hnone
  | cons member members =>
    have hbody : MembersText (fun value written => Value.chars value = written) (member :: members)
        (membersChars ((member :: members).map fun member => (member.1, member.2))) :=
      membersText_chars (fun _ => rfl) member members
    rw [List.map_id'] at hbody
    exact .full (hbody.map fun _ _ h => h) (List.forall_mem_map.mpr h)

def valuesUnder (members : List Log.RawMember) (name : String) : List (List Char) :=
  (members.filter fun member => member.1 = name).map Prod.snd

section

variable {members : List Log.RawMember} {name : String}

theorem mem_valuesUnder {value : List Char} :
    value ∈ valuesUnder members name ↔ (name, value) ∈ members := by
  simp [valuesUnder]

/-- Two members have different keys of some kind if there is at most one value under each. -/
theorem pairwise_of_valuesUnder (Known : String → Prop)
    (h : ∀ name, Known name → (valuesUnder members name).length ≤ 1) :
    members.Pairwise fun member later => member.1 = later.1 → ¬ Known member.1 := by
  rw [List.pairwise_iff_forall_sublist]
  intro member later hsublist hsame hknown
  have hone := h member.1 hknown
  have htwo := (hsublist.filter fun other => other.1 = member.1).length_le
  rw [valuesUnder, List.length_map] at hone
  have hpair : [member, later].filter (fun other => other.1 = member.1) = [member, later] := by
    simp [hsame]
  rw [hpair, List.length_cons, List.length_singleton] at htwo
  omega

end

end ContainerCheck.Json
