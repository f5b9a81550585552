import ContainerCheck.Proofs.ObjectLines

namespace ContainerCheck.Json

open ContainerCheck.Text

section

variable {text rest : List Char}

theorem exists_spaces (text : List Char) :
    ∃ spaces, IsSpaces spaces ∧ text = spaces ++ skipSpaces text := by
  induction text with
  | nil => exact ⟨[], nofun, rfl⟩
  | cons c text ih =>
    cases hc : isSpace c with
    | false => exact ⟨[], nofun, by simp [skipSpaces, hc]⟩
    | true =>
      obtain ⟨spaces, hspaces, htext⟩ := ih
      refine ⟨c :: spaces, List.forall_mem_cons.mpr ⟨hc, hspaces⟩, ?_⟩
      rw [skipSpaces, if_pos hc, List.cons_append, ← htext]

theorem spaces_of_skipSpaces {c : Char} (h : skipSpaces text = c :: rest) :
    ∃ spaces, IsSpaces spaces ∧ text = spaces ++ c :: rest := by
  obtain ⟨spaces, hspaces, htext⟩ := exists_spaces text
  exact ⟨spaces, hspaces, h ▸ htext⟩

theorem IsSpaces.append {spaces spaces' : List Char} (h : IsSpaces spaces)
    (h' : IsSpaces spaces') : IsSpaces (spaces ++ spaces') :=
  List.forall_mem_append.mpr ⟨h, h'⟩

theorem of_readWord {letters : List Char} (h : readWord letters text = .ok rest) :
    text = letters ++ rest := by
  induction letters generalizing text with
  | nil => exact Except.ok.inj h
  | cons letter letters ih =>
    cases text with
    | nil => cases h
    | cons c text =>
      rw [readWord] at h
      split at h
      · next hc => rw [hc, ih h, List.cons_append]
      · cases h

theorem of_skipDigits (h : skipDigits text = .ok rest) :
    ∃ digits, IsDigits digits ∧ text = digits ++ rest := by
  cases text with
  | nil => cases h
  | cons c text =>
    rw [skipDigits] at h
    split at h
    · next hc =>
      cases h
      refine ⟨c :: text.takeWhile Char.isDigit, ⟨List.cons_ne_nil _ _, ?_⟩, ?_⟩
      · exact List.forall_mem_cons.mpr ⟨hc, fun d hd => List.mem_takeWhile_imp hd⟩
      · rw [List.cons_append, List.takeWhile_append_dropWhile]
    · cases h

/-- The text behind the letter of an exponent. -/
theorem of_skipExponent (h : skipExponent text = .ok rest) {letter : Char}
    (hletter : letter = 'e' ∨ letter = 'E') :
    ∃ exponent, ExponentText exponent ∧ letter :: text = exponent ++ rest := by
  unfold skipExponent at h
  split at h
  · obtain ⟨digits, hdigits, rfl⟩ := of_skipDigits h
    exact ⟨_, .digits hletter (.inr (.inl rfl)) hdigits, rfl⟩
  · obtain ⟨digits, hdigits, rfl⟩ := of_skipDigits h
    exact ⟨_, .digits hletter (.inr (.inr rfl)) hdigits, rfl⟩
  · obtain ⟨digits, hdigits, rfl⟩ := of_skipDigits h
    exact ⟨_, .digits hletter (.inl rfl) hdigits, rfl⟩

theorem of_skipFraction (h : skipFraction text = .ok rest) :
    ∃ digits exponent, IsDigits digits ∧ ExponentText exponent ∧
      text = digits ++ (exponent ++ rest) := by
  have hcut := List.takeWhile_append_dropWhile (p := Char.isDigit) (l := text)
  have hdigits : text.takeWhile Char.isDigit ≠ [] → IsDigits (text.takeWhile Char.isDigit) :=
    fun hne => ⟨hne, fun d hd => List.mem_takeWhile_imp hd⟩
  unfold skipFraction at h
  generalize text.takeWhile Char.isDigit = digits at h hcut hdigits
  generalize text.dropWhile Char.isDigit = behind at h hcut
  rw [← hcut]
  split at h
  · cases h
  · next hne =>
    obtain ⟨exponent, hexponent, htext⟩ := of_skipExponent h (.inl rfl)
    exact ⟨digits, exponent, hdigits hne, hexponent, by rw [htext]⟩
  · next hne =>
    obtain ⟨exponent, hexponent, htext⟩ := of_skipExponent h (.inr rfl)
    exact ⟨digits, exponent, hdigits hne, hexponent, by rw [htext]⟩
  · next hne _ _ =>
    cases h
    exact ⟨digits, [], hdigits hne, .none, rfl⟩

theorem of_skipTail (h : skipTail text = .ok rest) :
    ∃ fraction exponent, FractionText fraction ∧ ExponentText exponent ∧
      text = fraction ++ (exponent ++ rest) := by
  unfold skipTail at h
  split at h
  · obtain ⟨digits, exponent, hdigits, hexponent, rfl⟩ := of_skipFraction h
    exact ⟨_, exponent, .digits hdigits, hexponent, rfl⟩
  · obtain ⟨exponent, hexponent, htext⟩ := of_skipExponent h (.inl rfl)
    exact ⟨[], exponent, .none, hexponent, htext⟩
  · obtain ⟨exponent, hexponent, htext⟩ := of_skipExponent h (.inr rfl)
    exact ⟨[], exponent, .none, hexponent, htext⟩
  · cases h
    exact ⟨[], [], .none, .none, rfl⟩

theorem of_skipNumeral (h : skipNumeral text = .ok rest) :
    ∃ numeral, NumeralText numeral ∧ text = numeral ++ rest := by
  have hnumeral {whole behind : List Char} (hwhole : WholeText whole)
      (htail : skipTail behind = .ok rest) :
      ∃ numeral, NumeralText numeral ∧ whole ++ behind = numeral ++ rest := by
    obtain ⟨fraction, exponent, hfraction, hexponent, rfl⟩ := of_skipTail htail
    exact ⟨_, .mk hwhole hfraction hexponent, by simp only [List.append_assoc]⟩
  unfold skipNumeral at h
  split at h
  · split at h
    · cases h
    · exact hnumeral .zero h
  · next hzero =>
    obtain ⟨behind, hdigits, htail⟩ := bind_eq_ok_iff.mp h
    obtain ⟨digits, ⟨hne, hall⟩, rfl⟩ := of_skipDigits hdigits
    cases digits with
    | nil => exact absurd rfl hne
    | cons c digits =>
      have hc : c ≠ '0' := by
        rintro rfl
        exact hzero _ rfl
      rw [List.forall_mem_cons] at hall
      exact hnumeral (.digits hall.1 hc hall.2) htail

theorem of_skipString (h : skipString text = .ok rest) :
    ∃ content, RawText content ∧ text = content ++ '"' :: rest := by
  -- The end is passed at the closing quote, behind a character and behind an escape.
  fun_induction skipString text with
  | case2 =>
    cases h
    exact ⟨[], .nil, rfl⟩
  | case5 a b c d after n hquad _ ih =>
    obtain ⟨content, hcontent, rfl⟩ := ih h
    obtain ⟨hn, hunit⟩ := unitSpelling_of_hexQuad? hquad
    exact ⟨_, .unit hn hunit hcontent, rfl⟩
  | case7 letter after _ c hescape _ ih =>
    obtain ⟨content, hcontent, rfl⟩ := ih h
    exact ⟨_, .short (mem_shortEscapes_of_simpleEscape? hescape) hcontent, rfl⟩
  | case10 c after hquote hslash hcontrol ih =>
    obtain ⟨content, hcontent, rfl⟩ := ih h
    exact ⟨_, .bare (isPlain_of_readString hquote hslash hcontrol) hcontent, rfl⟩
  | _ => cases h

theorem of_skipScalar {c : Char} (h : skipScalar c text = .ok rest) :
    ∃ value, JsonText .value (c :: value) ∧ text = value ++ rest := by
  unfold skipScalar at h
  split_ifs at h with hnull htrue hfalse hminus hdigit hquote
  · exact ⟨_, hnull ▸ .null, of_readWord h⟩
  · exact ⟨_, htrue ▸ .true, of_readWord h⟩
  · exact ⟨_, hfalse ▸ .false, of_readWord h⟩
  · obtain ⟨numeral, hnumeral, htext⟩ := of_skipNumeral h
    exact ⟨numeral, hminus ▸ .negative hnumeral, htext⟩
  · obtain ⟨numeral, hnumeral, htext⟩ := of_skipNumeral h
    obtain ⟨d, tail, rfl, -⟩ := hnumeral.begins
    cases htext
    exact ⟨tail, .number hnumeral, rfl⟩
  · obtain ⟨content, hcontent, rfl⟩ := of_skipString h
    exact ⟨content ++ ['"'], hquote ▸ .string hcontent, by simp⟩

/-- What follows a value that stands in some frames, up to the end of the outermost one. -/
inductive Behind : List Frame → List Char → Prop
  | done : Behind [] []
  | close {frame : Frame} {outer : List Frame} {after text : List Char} (hafter : IsSpaces after)
    (h : Behind outer text) : Behind (frame :: outer) (after ++ frame.close :: text)
  | more {frame : Frame} {outer : List Frame} {after parts text : List Char}
    (hafter : IsSpaces after) (hparts : JsonText (.parts frame) parts) (h : Behind outer text) :
    Behind (frame :: outer) (after ++ ',' :: (parts ++ frame.close :: text))

/-- A value stands next in some frames, which are closed in front of `rest`. -/
def ValueIn (frames : List Frame) (text rest : List Char) : Prop :=
  ∃ spaces value behind, IsSpaces spaces ∧ JsonText .value value ∧ Behind frames behind ∧
    text = spaces ++ (value ++ (behind ++ rest))

def Remains : List Frame → List Char → List Char → Prop
  | [], text, rest => text = rest
  | frame :: outer, text, rest => ValueIn (frame :: outer) text rest

variable {frame : Frame} {frames frames' outer : List Frame} {text' : List Char}

theorem Frame.Front.behind_spaces {spaces front : List Char} (hspaces : IsSpaces spaces)
    (h : frame.Front front) : frame.Front (spaces ++ front) := by
  cases h with
  | list h => exact .list (hspaces.append h)
  | object hbefore hkey hbehind hafter =>
    rw [← List.append_assoc]
    exact .object (hspaces.append hbefore) hkey hbehind hafter

theorem of_readColon (h : readColon text = .ok rest) :
    ∃ spaces, IsSpaces spaces ∧ text = spaces ++ ':' :: rest := by
  unfold readColon at h
  split at h
  · cases h
  · next c tail hskip =>
    split at h
    · next hc =>
      cases h
      exact hc ▸ spaces_of_skipSpaces hskip
    · cases h

/-- A value is entered behind what has to stand in front of it. -/
theorem of_enter (h : frame.enter text = .ok rest) :
    ∃ front, text = front ++ rest ∧ ∀ spaces, IsSpaces spaces → frame.Front (front ++ spaces) := by
  cases frame with
  | list =>
    cases h
    exact ⟨[], rfl, fun spaces hspaces => .list hspaces⟩
  | object =>
    simp only [Frame.enter] at h
    split at h
    · cases h
    · next c tail hskip =>
      split at h
      · next hc =>
        subst hc
        obtain ⟨behind, hkey, hcolon⟩ := bind_eq_ok_iff.mp h
        obtain ⟨before, hbefore, rfl⟩ := spaces_of_skipSpaces hskip
        obtain ⟨key, hraw, rfl⟩ := of_skipString hkey
        obtain ⟨between, hbetween, rfl⟩ := of_readColon hcolon
        refine ⟨before ++ '"' :: (key ++ '"' :: (between ++ [':'])), by simp, ?_⟩
        intro spaces hspaces
        have hfront := Frame.Front.object hbefore hraw hbetween hspaces
        rwa [show before ++ '"' :: (key ++ '"' :: (between ++ [':'])) ++ spaces =
          before ++ '"' :: (key ++ '"' :: (between ++ ':' :: spaces)) by simp]
      · cases h

/-- The values of a frame from one that has been entered, and what follows the frame. -/
theorem parts_of_valueIn {front : List Char}
    (hfront : ∀ spaces, IsSpaces spaces → frame.Front (front ++ spaces))
    (h : ValueIn (frame :: outer) text rest) :
    ∃ parts behind, JsonText (.parts frame) parts ∧ Behind outer behind ∧
      front ++ text = parts ++ frame.close :: (behind ++ rest) := by
  obtain ⟨spaces, value, _, hspaces, hvalue, hbehind, rfl⟩ := h
  cases hbehind with
  | close hafter h =>
    exact ⟨_, _, .last (hfront spaces hspaces) hvalue hafter, h, by simp⟩
  | more hafter hparts h =>
    exact ⟨_, _, .more (hfront spaces hspaces) hvalue hafter hparts, h, by simp⟩

theorem of_leave (h : leave frames text = .ok (frames', text'))
    (hrest : Remains frames' text' rest) :
    ∃ behind, Behind frames behind ∧ text = behind ++ rest := by
  induction frames generalizing text with
  | nil =>
    cases h
    exact ⟨[], .done, hrest⟩
  | cons frame outer ih =>
    rw [leave] at h
    split at h
    · cases h
    · next c tail hskip =>
      obtain ⟨after, hafter, rfl⟩ := spaces_of_skipSpaces hskip
      split at h
      · next hc =>
        subst hc
        split at h
        · cases h
        · next henter =>
          cases h
          obtain ⟨front, rfl, hfront⟩ := of_enter henter
          obtain ⟨parts, behind, hparts, hbehind, htext⟩ := parts_of_valueIn hfront hrest
          exact ⟨_, .more hafter hparts hbehind, by simp [htext]⟩
      · split at h
        · next hc =>
          obtain ⟨behind, hbehind, rfl⟩ := ih h
          exact ⟨_, .close hafter hbehind, by simp [hc]⟩
        · cases h

theorem of_openFrame (h : openFrame frame outer text = .ok (frames', text'))
    (hrest : Remains frames' text' rest) :
    ∃ inner behind, JsonText .value (frame.bracket :: inner) ∧ Behind outer behind ∧
      text = inner ++ (behind ++ rest) := by
  unfold openFrame at h
  split at h
  · cases h
  · next c tail hskip =>
    obtain ⟨spaces, hspaces, rfl⟩ := spaces_of_skipSpaces hskip
    split at h
    · next hc =>
      obtain ⟨behind, hbehind, rfl⟩ := of_leave h hrest
      exact ⟨_, behind, .empty frame hspaces, hbehind, by simp [hc]⟩
    · split at h
      · cases h
      · next henter =>
        cases h
        obtain ⟨front, htail, hfront⟩ := of_enter henter
        have hlead : ∀ more, IsSpaces more → frame.Front (spaces ++ front ++ more) :=
          fun more hmore => by
            rw [List.append_assoc]
            exact (hfront more hmore).behind_spaces hspaces
        obtain ⟨parts, behind, hparts, hbehind, htext⟩ := parts_of_valueIn hlead hrest
        refine ⟨_, behind, .full hparts, hbehind, ?_⟩
        rw [htail, ← List.append_assoc, htext]
        simp

theorem of_skipStep (h : skipStep frames text = .ok (frames', text'))
    (hrest : Remains frames' text' rest) : ValueIn frames text rest := by
  unfold skipStep at h
  split at h
  · cases h
  · next c tail hskip =>
    obtain ⟨spaces, hspaces, rfl⟩ := spaces_of_skipSpaces hskip
    split_ifs at h with hlist hobject
    · obtain ⟨inner, behind, hvalue, hbehind, rfl⟩ := of_openFrame h hrest
      exact ⟨spaces, _, behind, hspaces, hvalue, hbehind, by simp [hlist, Frame.bracket]⟩
    · obtain ⟨inner, behind, hvalue, hbehind, rfl⟩ := of_openFrame h hrest
      exact ⟨spaces, _, behind, hspaces, hvalue, hbehind, by simp [hobject, Frame.bracket]⟩
    · split at h
      · cases h
      · next hscalar =>
        obtain ⟨value, hvalue, rfl⟩ := of_skipScalar hscalar
        obtain ⟨behind, hbehind, rfl⟩ := of_leave h hrest
        exact ⟨spaces, _, behind, hspaces, hvalue, hbehind, by simp⟩

theorem of_skipIn {fuel : Nat} (h : skipIn fuel frames text = .ok rest) :
    ValueIn frames text rest := by
  induction fuel generalizing frames text with
  | zero => cases h
  | succ fuel ih =>
    rw [skipIn] at h
    split at h
    · cases h
    · next hstep =>
      cases h
      exact of_skipStep hstep rfl
    · next hstep => exact of_skipStep hstep (ih h)

/-- What is passed over is a value. -/
theorem of_skipValue (h : skipValue text = .ok rest) :
    ∃ spaces value, IsSpaces spaces ∧ JsonText .value value ∧ text = spaces ++ (value ++ rest) := by
  obtain ⟨spaces, value, behind, hspaces, hvalue, hbehind, htext⟩ := of_skipIn h
  cases hbehind
  exact ⟨spaces, value, hspaces, hvalue, htext⟩

end

def Reader.TakesJson {α : Type} (read : Reader α) : Prop :=
  ∀ {text rest : List Char} {value : α}, read text = .ok (value, rest) →
    ∃ spaces json, IsSpaces spaces ∧ JsonText .value json ∧ text = spaces ++ (json ++ rest)

theorem Reader.named_takesJson (expected : String) : (Reader.named expected).TakesJson := by
  intro text rest value h
  unfold Reader.named at h
  split at h
  · cases h
  · next c tail hskip =>
    obtain ⟨spaces, hspaces, rfl⟩ := spaces_of_skipSpaces hskip
    split at h
    · next hc =>
      split at h
      · cases h
      · next hread =>
        cases h
        obtain ⟨content, rfl, hcontent⟩ := exists_spelling_of_readString hread
        exact ⟨spaces, _, hspaces, .string (rawText_of_spelling hcontent), by simp [hc]⟩
    · cases h

theorem Field.of_takesJson {α β : Type} {read : Reader β} (h : read.TakesJson) (name : String)
    (set : α → β → α) : (Field.of name read set).read.TakesJson := by
  intro text rest change hread
  simp only [Field.of] at hread
  split at hread
  · cases hread
  · next hvalue =>
    cases hread
    exact h hvalue

inductive LeadText : Bool → List Char → Prop
  | first : LeadText true []
  | comma {after : List Char} (h : IsSpaces after) : LeadText false (after ++ [','])

inductive RestText : Bool → List Char → List Char → Prop
  | closed {first : Bool} {spaces rest : List Char} (h : IsSpaces spaces) :
    RestText first (spaces ++ '\x7d' :: rest) rest
  | members {first : Bool} {lead body rest : List Char} {members : List (String × List Char)}
    (hlead : LeadText first lead) (hbody : MembersText Eq members body)
    (hvalues : ∀ member ∈ members, JsonText .value member.2) :
    RestText first (lead ++ (body ++ '\x7d' :: rest)) rest

section

variable {first : Bool} {text rest : List Char}

theorem closed_of_nextMember (h : nextMember first text = .ok (.closed rest)) :
    ∃ spaces, IsSpaces spaces ∧ text = spaces ++ '\x7d' :: rest := by
  unfold nextMember at h
  split at h
  · cases h
  · next c tail hskip =>
    split_ifs at h with hclosed hfirst hquote hcomma
    · cases h
      exact hclosed ▸ spaces_of_skipSpaces hskip
    · cases h
    · split at h
      · cases h
      · split_ifs at h
        cases h

theorem part_of_nextMember (h : nextMember first text = .ok (.part rest)) :
    ∃ lead spaces, LeadText first lead ∧ IsSpaces spaces ∧
      text = lead ++ (spaces ++ '"' :: rest) := by
  unfold nextMember at h
  split at h
  · cases h
  · next c tail hskip =>
    obtain ⟨spaces, hspaces, rfl⟩ := spaces_of_skipSpaces hskip
    split_ifs at h with hclosed hfirst hquote hcomma
    · cases h
    · cases h
      exact ⟨[], spaces, hfirst ▸ .first, hspaces, by simp [hquote]⟩
    · split at h
      · cases h
      · next d more hnext =>
        obtain ⟨spaces', hspaces', rfl⟩ := spaces_of_skipSpaces hnext
        split_ifs at h with hquote
        cases h
        refine ⟨spaces ++ [','], spaces', ?_, hspaces', by simp [hquote, hcomma]⟩
        rw [Bool.eq_false_iff.mpr hfirst]
        exact .comma hspaces

/-- A member in front of further ones. -/
theorem RestText.cons {key : String} {lead spaces content between spaces' value : List Char}
    (hlead : LeadText first lead) (hspaces : IsSpaces spaces)
    (hcontent : Spelling key.toList content) (hbetween : IsSpaces between)
    (hspaces' : IsSpaces spaces') (hvalue : JsonText .value value)
    (h : RestText false text rest) :
    RestText first (lead ++ (spaces ++ '"' :: (content ++ '"' ::
      (between ++ ':' :: (spaces' ++ (value ++ text)))))) rest := by
  have hmember {after : List Char} (hafter : IsSpaces after) : MemberText Eq (key, value)
      (spaces ++ ('"' :: content ++ ['"'] ++ between) ++ ':' :: (spaces' ++ (value ++ after))) :=
    ⟨_, _, ⟨spaces, _, between, hspaces, ⟨content, hcontent, rfl⟩, hbetween, rfl⟩,
      ⟨spaces', _, after, hspaces', rfl, hafter, rfl⟩, rfl⟩
  cases h with
  | closed hafter =>
    have hone : RestText first (lead ++ (_ ++ '\x7d' :: rest)) rest :=
      .members hlead (.last (hmember hafter)) (List.forall_mem_singleton.mpr hvalue)
    simpa using hone
  | members hcomma hbody hvalues =>
    cases hcomma with
    | comma hafter =>
      have hmore : RestText first (lead ++ (_ ++ '\x7d' :: rest)) rest :=
        .members hlead (.more (hmember hafter) hbody) (List.forall_mem_cons.mpr ⟨hvalue, hvalues⟩)
      simpa using hmore

namespace Shape

variable {α : Type} {shape : Shape α} {value : α}

theorem restText_of_readObject (hfields : ∀ field ∈ shape.fields, field.read.TakesJson)
    {fuel : Nat} {given : List String} {draft : α}
    (h : shape.readObject fuel first given draft text = .ok (value, rest)) :
    RestText first text rest := by
  induction fuel generalizing first given draft text with
  | zero => cases h
  | succ fuel ih =>
    rw [readObject] at h
    split at h
    · cases h
    · next hnext =>
      obtain ⟨spaces, hspaces, rfl⟩ := closed_of_nextMember hnext
      split at h
      · cases h
      · cases h
        exact .closed hspaces
    · next hnext =>
      obtain ⟨lead, spaces, hlead, hspaces, rfl⟩ := part_of_nextMember hnext
      simp only [bind_eq_ok_iff, Prod.exists] at h
      obtain ⟨key, behind, hkey, h⟩ := h
      obtain ⟨content, rfl, hcontent⟩ := exists_spelling_of_readString hkey
      rw [← String.toList_ofList (l := key)] at hcontent
      split at h
      · simp only [bind_eq_ok_iff] at h
        obtain ⟨colon, hcolon, more, hskip, h⟩ := h
        obtain ⟨between, hbetween, rfl⟩ := of_readColon hcolon
        obtain ⟨spaces', json, hspaces', hjson, rfl⟩ := of_skipValue hskip
        exact .cons hlead hspaces hcontent hbetween hspaces' hjson (ih h)
      · next field hfind =>
        split at h
        · cases h
        · simp only [bind_eq_ok_iff, Prod.exists] at h
          obtain ⟨colon, hcolon, set, more, hread, h⟩ := h
          obtain ⟨between, hbetween, rfl⟩ := of_readColon hcolon
          obtain ⟨spaces', json, hspaces', hjson, rfl⟩ :=
            hfields field (List.mem_of_find?_eq_some hfind) hread
          exact .cons hlead hspaces hcontent hbetween hspaces' hjson (ih h)

/-- What is read as an object is one. -/
theorem exists_rawObject_of_read (hfields : ∀ field ∈ shape.fields, field.read.TakesJson)
    (hbrace : (skipSpaces text).head? = some '\x7b') (h : shape.read text = .ok (value, rest)) :
    ∃ spaces members object, IsSpaces spaces ∧ Log.RawObject members object ∧
      text = spaces ++ (object ++ rest) := by
  unfold read at h
  split at h
  · cases h
  · next c tail hskip =>
    rw [hskip] at hbrace
    cases hbrace
    obtain ⟨spaces, hspaces, rfl⟩ := spaces_of_skipSpaces hskip
    rw [if_pos rfl] at h
    cases restText_of_readObject hfields h with
    | closed hinner => exact ⟨spaces, _, _, hspaces, .empty hinner, by simp⟩
    | members hlead hbody hvalues =>
      cases hlead
      exact ⟨spaces, _, _, hspaces, .full hbody hvalues, by simp⟩

end Shape

end

end ContainerCheck.Json
