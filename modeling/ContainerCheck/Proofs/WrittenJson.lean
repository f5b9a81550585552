import ContainerCheck.Json.Shape
import Mathlib.Tactic.IntervalCases

namespace ContainerCheck.Json

open ContainerCheck.Text

def IsHexDigit (n : Nat) (c : Char) : Prop := c = n.digitChar ∨ c = n.digitChar.toUpper

instance (n : Nat) (c : Char) : Decidable (IsHexDigit n c) := inferInstanceAs (Decidable (_ ∨ _))

inductive UnitSpelling (n : Nat) : List Char → Prop
  | mk {a b c d : Char} (ha : IsHexDigit (n / 4096 % 16) a) (hb : IsHexDigit (n / 256 % 16) b)
    (hc : IsHexDigit (n / 16 % 16) c) (hd : IsHexDigit (n % 16) d) :
    UnitSpelling n ['\\', 'u', a, b, c, d]

def shortEscapes : List (Char × Char) :=
  [('"', '"'), ('\\', '\\'), ('/', '/'), ('b', '\x08'), ('f', '\x0c'), ('n', '\n'), ('r', '\r'),
    ('t', '\t')]

def isPlain (c : Char) : Bool := 0x20 ≤ c.toNat && c != '"' && c != '\\'

/-- The ways to write a character inside a string: as it is, with a letter behind a backslash, or
by its number, which takes two units past sixteen bits. -/
inductive CharSpelling (c : Char) : List Char → Prop
  | bare (h : isPlain c = true) : CharSpelling c [c]
  | short {letter : Char} (h : (letter, c) ∈ shortEscapes) : CharSpelling c ['\\', letter]
  | unit {written : List Char} (hc : c.toNat < 0x10000) (h : UnitSpelling c.toNat written) :
    CharSpelling c written
  | pair {high low : List Char} (hc : 0x10000 ≤ c.toNat)
    (hhigh : UnitSpelling (0xd800 + (c.toNat - 0x10000) / 0x400) high)
    (hlow : UnitSpelling (0xdc00 + (c.toNat - 0x10000) % 0x400) low) :
    CharSpelling c (high ++ low)

inductive Spelling : List Char → List Char → Prop
  | nil : Spelling [] []
  | cons {c : Char} {text piece written : List Char} (hc : CharSpelling c piece)
    (h : Spelling text written) : Spelling (c :: text) (piece ++ written)

def StringText (text : String) (written : List Char) : Prop :=
  ∃ content, Spelling text.toList content ∧ written = '"' :: content ++ ['"']

theorem Spelling.append {text written text' written' : List Char} (h : Spelling text written)
    (h' : Spelling text' written') : Spelling (text ++ text') (written ++ written') := by
  induction h with
  | nil => exact h'
  | cons hc _ ih =>
    rw [List.cons_append, List.append_assoc]
    exact .cons hc ih

/-- A text that needs no escape may stand as it is. -/
theorem spelling_self (text : List Char) (h : text.all isPlain = true) : Spelling text text := by
  induction text with
  | nil => exact .nil
  | cons c text ih =>
    rw [List.all_cons, Bool.and_eq_true] at h
    exact .cons (.bare h.1) (ih h.2)

theorem stringText_self (text : String) (h : text.toList.all isPlain = true) :
    StringText text ('"' :: text.toList ++ ['"']) :=
  ⟨_, spelling_self _ h, rfl⟩

theorem hexDigit?_of_isHexDigit {n : Nat} {c : Char} (hn : n < 16) (h : IsHexDigit n c) :
    hexDigit? c = some n := by
  rcases h with rfl | rfl <;> interval_cases n <;> decide

/-- Four hexadecimal digits have the value of their number. -/
theorem hexQuad?_of_isHexDigit {n : Nat} {a b c d : Char} (hn : n < 0x10000)
    (ha : IsHexDigit (n / 4096 % 16) a) (hb : IsHexDigit (n / 256 % 16) b)
    (hc : IsHexDigit (n / 16 % 16) c) (hd : IsHexDigit (n % 16) d) : hexQuad? a b c d = some n := by
  have hvalue : ((n / 4096 % 16) * 16 + n / 256 % 16) * 256 + (n / 16 % 16) * 16 + n % 16 = n := by
    omega
  simp only [hexQuad?, hexDigit?_of_isHexDigit (Nat.mod_lt _ (by decide)) ha,
    hexDigit?_of_isHexDigit (Nat.mod_lt _ (by decide)) hb,
    hexDigit?_of_isHexDigit (Nat.mod_lt _ (by decide)) hc,
    hexDigit?_of_isHexDigit (Nat.mod_lt _ (by decide)) hd]
  exact congrArg some hvalue

theorem simpleEscape?_of_mem {letter c : Char} (h : (letter, c) ∈ shortEscapes) :
    simpleEscape? letter = some c ∧ letter ≠ 'u' := by
  simp only [shortEscapes, List.mem_cons, Prod.mk.injEq, List.not_mem_nil, or_false] at h
  rcases h with ⟨rfl, rfl⟩ | ⟨rfl, rfl⟩ | ⟨rfl, rfl⟩ | ⟨rfl, rfl⟩ | ⟨rfl, rfl⟩ | ⟨rfl, rfl⟩ |
    ⟨rfl, rfl⟩ | ⟨rfl, rfl⟩ <;> decide

section

variable (rest : List Char)

theorem readString_quote : readString ('"' :: rest) = .ok ([], rest) := by
  rw [readString.eq_def]
  rfl

theorem readString_bare {c : Char} (h : isPlain c = true) :
    readString (c :: rest) = consChar c (readString rest) := by
  simp only [isPlain, Bool.and_eq_true, decide_eq_true_eq, bne_iff_ne] at h
  obtain ⟨⟨hcontrol, hquote⟩, hslash⟩ := h
  have hspace : ¬ c < ' ' := by
    rw [Char.lt_def, UInt32.lt_iff_toNat_lt]
    exact Nat.not_lt.mpr hcontrol
  rw [readString.eq_def]
  simp only [hquote, hslash, hspace, if_false]

theorem readString_short {letter c : Char} (h : (letter, c) ∈ shortEscapes) :
    readString ('\\' :: letter :: rest) = consChar c (readString rest) := by
  obtain ⟨hescape, hletter⟩ := simpleEscape?_of_mem h
  rw [readString.eq_def]
  simp [hescape]

/-- A unit that is no surrogate is read as its character. -/
theorem readString_unit {c : Char} {written : List Char} (hc : c.toNat < 0x10000)
    (h : UnitSpelling c.toNat written) :
    readString (written ++ rest) = consChar c (readString rest) := by
  obtain ⟨ha, hb, hc', hd⟩ := h
  have hquad := hexQuad?_of_isHexDigit hc ha hb hc' hd
  have hvalid : c.toNat < 0xd800 ∨ 0xdfff < c.toNat ∧ c.toNat < 0x110000 := c.valid
  have hlow : isLowSurrogate c.toNat = false := by
    simp [isLowSurrogate]
    omega
  have hhigh : isHighSurrogate c.toNat = false := by
    simp [isHighSurrogate]
    omega
  have hself : Char.ofNat c.toNat = c := Char.ofNat_toNat c
  rw [List.cons_append, List.cons_append, List.cons_append, List.cons_append, List.cons_append,
    List.cons_append, List.nil_append, readString.eq_def]
  simp [hquad, hlow, hhigh, hself]

/-- A pair of surrogates is read as their character. -/
theorem readString_pair {c : Char} {high low : List Char} (hc : 0x10000 ≤ c.toNat)
    (hhigh : UnitSpelling (0xd800 + (c.toNat - 0x10000) / 0x400) high)
    (hlow : UnitSpelling (0xdc00 + (c.toNat - 0x10000) % 0x400) low) :
    readString (high ++ low ++ rest) = consChar c (readString rest) := by
  have hvalid : c.toNat < 0xd800 ∨ 0xdfff < c.toNat ∧ c.toNat < 0x110000 := c.valid
  have hself : pairChar (0xd800 + (c.toNat - 0x10000) / 0x400)
      (0xdc00 + (c.toNat - 0x10000) % 0x400) = c := by
    have hvalue : (0xd800 + (c.toNat - 0x10000) / 0x400 - 0xd800) * 0x400 +
        (0xdc00 + (c.toNat - 0x10000) % 0x400 - 0xdc00) + 0x10000 = c.toNat := by
      omega
    rw [pairChar, hvalue]
    exact Char.ofNat_toNat c
  obtain ⟨ha, hb, hc', hd⟩ := hhigh
  obtain ⟨he, hf, hg, hh⟩ := hlow
  have hfirst := hexQuad?_of_isHexDigit (by omega) ha hb hc' hd
  have hsecond := hexQuad?_of_isHexDigit (by omega) he hf hg hh
  have hnot : isLowSurrogate (0xd800 + (c.toNat - 0x10000) / 0x400) = false := by
    simp [isLowSurrogate]
    omega
  have hleads : isHighSurrogate (0xd800 + (c.toNat - 0x10000) / 0x400) = true := by
    simp [isHighSurrogate]
    omega
  have htrails : isLowSurrogate (0xdc00 + (c.toNat - 0x10000) % 0x400) = true := by
    simp [isLowSurrogate]
    omega
  simp only [List.cons_append, List.nil_append]
  rw [readString.eq_def]
  simp [hfirst, hsecond, hnot, hleads, htrails, hself]

/-- A character is read from any of its spellings. -/
theorem readString_spelling {c : Char} {piece : List Char} (h : CharSpelling c piece) :
    readString (piece ++ rest) = consChar c (readString rest) := by
  cases h with
  | bare h => exact readString_bare rest h
  | short h => exact readString_short rest h
  | unit hc h => exact readString_unit rest hc h
  | pair hc hhigh hlow => exact readString_pair rest hc hhigh hlow

/-- The content of a string is read from any of its spellings, up to the closing quote. -/
theorem readString_written {text written : List Char} (h : Spelling text written) :
    readString (written ++ '"' :: rest) = .ok (text, rest) := by
  induction h with
  | nil => exact readString_quote rest
  | cons hc _ ih =>
    rw [List.append_assoc, readString_spelling _ hc, ih]
    rfl

end

def IsSpaces (text : List Char) : Prop := ∀ c ∈ text, isSpace c = true

instance (text : List Char) : Decidable (IsSpaces text) :=
  decidable_of_iff (text.all isSpace = true) List.all_eq_true

def Spaced (Written : List Char → Prop) (text : List Char) : Prop :=
  ∃ before body after, IsSpaces before ∧ Written body ∧ IsSpaces after ∧
    text = before ++ (body ++ after)

theorem skipSpaces_append {spaces : List Char} (h : IsSpaces spaces) (text : List Char) :
    skipSpaces (spaces ++ text) = skipSpaces text := by
  induction spaces with
  | nil => rfl
  | cons c spaces ih =>
    rw [List.cons_append, skipSpaces, if_pos (h c List.mem_cons_self)]
    exact ih fun d hd => h d (List.mem_cons_of_mem c hd)

theorem skipSpaces_of_isSpaces {spaces : List Char} (h : IsSpaces spaces) :
    skipSpaces spaces = [] := by
  simpa [skipSpaces] using skipSpaces_append h []

/-- A character that is no white space is the next one behind it. -/
theorem skipSpaces_next {spaces : List Char} (h : IsSpaces spaces) {c : Char}
    (hc : isSpace c = false) (rest : List Char) : skipSpaces (spaces ++ c :: rest) = c :: rest := by
  rw [skipSpaces_append h, skipSpaces, if_neg (by simp [hc])]

/-- A reader takes a value from a written text, whatever stands behind it. -/
def Reader.Takes {α : Type} (read : Reader α) (written : List Char) (value : α) : Prop :=
  ∀ spaces rest, IsSpaces spaces → read (spaces ++ (written ++ rest)) = .ok (value, rest)

section

variable {text : String} {written : List Char}

theorem Reader.named_takes (expected : String) (h : StringText text written) :
    (Reader.named expected).Takes written text := by
  intro spaces rest hspaces
  obtain ⟨content, hcontent, rfl⟩ := h
  rw [Reader.named, List.cons_append, List.cons_append, List.append_assoc, List.cons_append,
    List.nil_append, skipSpaces_next hspaces (by decide)]
  simp only [if_true, readString_written rest hcontent, String.ofList_toList]

theorem Reader.timestamp_takes {instant : Time.Instant} (h : StringText text written)
    (hread : Time.readLenient text.toList = .ok instant) :
    Reader.timestamp.Takes written instant := by
  intro spaces rest hspaces
  simp only [Reader.timestamp, Reader.named_takes _ h spaces rest hspaces, hread]

end

theorem Field.of_takes {α β : Type} {read : Reader β} {written : List Char} {value : β}
    (h : read.Takes written value) (name : String) (set : α → β → α) :
    (Field.of name read set).read.Takes written fun draft => set draft value := by
  intro spaces rest hspaces
  simp only [Field.of, h spaces rest hspaces]

section

variable {β : Type} (Written : β → List Char → Prop)

def MemberText (member : String × β) (text : List Char) : Prop :=
  ∃ key value, Spaced (StringText member.1) key ∧ Spaced (Written member.2) value ∧
    text = key ++ ':' :: value

inductive MembersText : List (String × β) → List Char → Prop
  | last {member : String × β} {text : List Char} (h : MemberText Written member text) :
    MembersText [member] text
  | more {member : String × β} {members : List (String × β)} {text tail : List Char}
    (h : MemberText Written member text) (htail : MembersText members tail) :
    MembersText (member :: members) (text ++ ',' :: tail)

def ObjectText (members : List (String × β)) (text : List Char) : Prop :=
  ∃ body, MembersText Written members body ∧ text = '\x7b' :: (body ++ ['\x7d'])

end

theorem nextMember_closed {spaces : List Char} (h : IsSpaces spaces) (first : Bool)
    (rest : List Char) : nextMember first (spaces ++ '\x7d' :: rest) = .ok (.closed rest) := by
  rw [nextMember, skipSpaces_next h (by decide)]
  exact if_pos rfl

theorem nextMember_first {spaces : List Char} (h : IsSpaces spaces) (rest : List Char) :
    nextMember true (spaces ++ '"' :: rest) = .ok (.part rest) := by
  rw [nextMember, skipSpaces_next h (by decide)]
  rfl

theorem nextMember_comma {after spaces : List Char} (hafter : IsSpaces after)
    (h : IsSpaces spaces) (rest : List Char) :
    nextMember false (after ++ ',' :: (spaces ++ '"' :: rest)) = .ok (.part rest) := by
  rw [nextMember, skipSpaces_next hafter (by decide)]
  simp only [skipSpaces_next h (show isSpace '"' = false from rfl)]
  rfl

theorem readColon_colon {spaces : List Char} (h : IsSpaces spaces) (rest : List Char) :
    readColon (spaces ++ ':' :: rest) = .ok rest := by
  rw [readColon, skipSpaces_next h (by decide)]
  exact if_pos rfl

namespace Shape

variable {α β : Type} {Written : β → List Char → Prop}

theorem read_brace (shape : Shape α) (text : List Char) :
    shape.read ('\x7b' :: text) = shape.readObject (text.length + 1) true [] shape.blank text := rfl

/-- A member stands for a known field, and each way to write it makes the same change. -/
def Stores (shape : Shape α) (Written : β → List Char → Prop) (member : String × β)
    (change : α → α) : Prop :=
  ∃ field, shape.find? member.1 = some field ∧
    ∀ written, Written member.2 written → field.read.Takes written change

def Leads (first : Bool) (lead : List Char) : Prop :=
  ∀ spaces rest, IsSpaces spaces →
    nextMember first (lead ++ (spaces ++ '"' :: rest)) = .ok (.part rest)

theorem leads_nil : Leads true [] := fun _ rest h => nextMember_first h rest

theorem leads_comma {after : List Char} (h : IsSpaces after) : Leads false (after ++ [',']) := by
  intro spaces rest hspaces
  simpa using nextMember_comma h hspaces rest

theorem missing?_eq_none {shape : Shape α} {given : List String}
    (h : ∀ field ∈ shape.fields, field.name ∈ given) : shape.missing? given = none := by
  simp only [missing?]
  split
  · rfl
  · simpa using fun field hfield _ => h field hfield

variable (shape : Shape α) {fuel : Nat} {first : Bool} {given : List String} {lead : List Char}

theorem readObject_closed {spaces : List Char} (hspaces : IsSpaces spaces) (draft : α)
    (rest : List Char) (hwhole : shape.missing? given = none) :
    shape.readObject (fuel + 1) first given draft (spaces ++ '\x7d' :: rest) =
      .ok (draft, rest) := by
  simp only [readObject, nextMember_closed hspaces, hwhole]

/-- Behind its key and the colon, the value of a member is read for the field that is known, or
passed over. -/
theorem readObject_key {member : String × β} {text : List Char}
    (hmember : MemberText Written member text) (hlead : Leads first lead) :
    ∃ behind spaces written after, IsSpaces spaces ∧ Written member.2 written ∧ IsSpaces after ∧
      ∀ fuel given (draft : α) tail,
        shape.readObject (fuel + 1) first given draft (lead ++ (text ++ tail)) =
          (match shape.find? member.1 with
          | none => do
            let rest ← skipValue (spaces ++ (written ++ (after ++ tail)))
            shape.readObject fuel false given draft rest
          | some field =>
            if given.contains field.name then
              .error ⟨.duplicateField field.name,
                settled (behind ++ ':' :: (spaces ++ (written ++ (after ++ tail))))⟩
            else do
              let (store, rest) ← field.read (spaces ++ (written ++ (after ++ tail)))
              shape.readObject fuel false (field.name :: given) (store draft) rest) := by
  obtain ⟨_, _, ⟨before, _, behind, hbefore, ⟨content, hcontent, rfl⟩, hbehind, rfl⟩,
    ⟨spaces, written, after, hspaces, hwritten, hafter, rfl⟩, rfl⟩ := hmember
  refine ⟨behind, spaces, written, after, hspaces, hwritten, hafter, ?_⟩
  intro fuel given draft tail
  have hnext := hlead before (content ++ '"' :: (behind ++ ':' ::
    (spaces ++ (written ++ (after ++ tail))))) hbefore
  have htext : lead ++ (before ++ ('"' :: content ++ ['"'] ++ behind) ++ ':' ::
      (spaces ++ (written ++ after)) ++ tail) = lead ++ (before ++ '"' :: (content ++ '"' ::
        (behind ++ ':' :: (spaces ++ (written ++ (after ++ tail)))))) := by
    simp
  rw [htext, readObject, hnext]
  cases hfield : shape.find? member.1 with
  | none | some field =>
    simp only [readString_written _ hcontent, bind, Except.bind, String.ofList_toList, hfield,
      readColon_colon hbehind]

theorem name_of_find? {name : String} {field : Field α} (h : shape.find? name = some field) :
    field.name = name := by
  have hfound := List.find?_some h
  exact beq_iff_eq.mp hfound

/-- A member of a field that is not given yet makes its change. -/
theorem readObject_member {member : String × β} {text : List Char} {change : α → α}
    (hmember : MemberText Written member text) (hstores : shape.Stores Written member change)
    (hlead : Leads first lead) (hfresh : member.1 ∉ given) :
    ∃ after, IsSpaces after ∧ ∀ fuel draft tail,
      shape.readObject (fuel + 1) first given draft (lead ++ (text ++ tail)) =
        shape.readObject fuel false (member.1 :: given) (change draft) (after ++ tail) := by
  obtain ⟨behind, spaces, written, after, hspaces, hwritten, hafter, hread⟩ :=
    shape.readObject_key hmember hlead
  obtain ⟨field, hfield, htakes⟩ := hstores
  refine ⟨after, hafter, fun fuel draft tail => ?_⟩
  have hcontains : given.contains member.1 = false := by simpa using hfresh
  rw [hread, hfield]
  simp only [shape.name_of_find? hfield, hcontains, Bool.false_eq_true, if_false, bind, Except.bind,
    htakes written hwritten spaces (after ++ tail) hspaces]

/-- Members of different fields make their changes one after the other. -/
theorem readObject_members {members : List (String × β)} {body : List Char}
    (hbody : MembersText Written members body) {change : String × β → α → α}
    (hstores : ∀ member ∈ members, shape.Stores Written member (change member))
    (hkeys : (members.map Prod.fst).Nodup) (hfresh : ∀ member ∈ members, member.1 ∉ given)
    (hwhole : shape.missing? ((members.map Prod.fst).reverse ++ given) = none)
    (hlead : Leads first lead) (hfuel : members.length < fuel) (draft : α) (rest : List Char) :
    shape.readObject fuel first given draft (lead ++ (body ++ '\x7d' :: rest)) =
      .ok (members.foldl (fun draft member => change member draft) draft, rest) := by
  induction hbody generalizing fuel first given lead draft with
  | @last member text h =>
    obtain ⟨fuel, rfl⟩ := Nat.exists_eq_add_of_lt hfuel
    obtain ⟨after, hafter, hstep⟩ := shape.readObject_member h (hstores member (by simp))
      hlead (hfresh member (by simp))
    rw [List.length_singleton, Nat.add_comm 1 fuel, hstep]
    exact shape.readObject_closed hafter _ rest hwhole
  | @more member members text tail h htail ih =>
    obtain ⟨fuel, rfl⟩ := Nat.exists_eq_succ_of_ne_zero (Nat.ne_zero_of_lt hfuel)
    obtain ⟨after, hafter, hstep⟩ := shape.readObject_member h (hstores member (by simp))
      hlead (hfresh member (by simp))
    rw [List.map_cons, List.nodup_cons] at hkeys
    have hrestFresh : ∀ m ∈ members, m.1 ∉ member.1 :: given := by
      intro m hm
      have hne : m.1 ≠ member.1 := fun heq => hkeys.1 (heq ▸ List.mem_map_of_mem hm)
      simp [hne, hfresh m (List.mem_cons_of_mem _ hm)]
    have hrest := ih (fun m hm => hstores m (List.mem_cons_of_mem _ hm)) hkeys.2 hrestFresh
      (by simpa using hwhole) (leads_comma hafter) (Nat.lt_of_succ_lt_succ hfuel)
      (change member draft)
    rw [List.append_assoc, List.cons_append, hstep, List.foldl_cons, ← hrest]
    simp

end Shape

theorem length_le_of_membersText {β : Type} {Written : β → List Char → Prop}
    {members : List (String × β)} {body : List Char} (h : MembersText Written members body) :
    members.length ≤ body.length := by
  induction h with
  | last h =>
    obtain ⟨key, value, -, -, rfl⟩ := h
    simp
    omega
  | more h _ ih =>
    simp only [List.length_cons, List.length_append]
    omega

namespace Shape

variable {α β : Type} {Written : β → List Char → Prop}

/-- An object whose members are the fields of a shape is read, and nothing is left of it. -/
theorem parse_object (shape : Shape α) {members : List (String × β)} {text : List Char}
    (htext : Spaced (ObjectText Written members) text) (change : String × β → α → α)
    (hstores : ∀ member ∈ members, shape.Stores Written member (change member))
    (hkeys : (members.map Prod.fst).Nodup)
    (hwhole : ∀ field ∈ shape.fields, field.name ∈ members.map Prod.fst) :
    parse shape.read text =
      .ok (members.foldl (fun draft member => change member draft) shape.blank) := by
  obtain ⟨before, _, after, hbefore, ⟨body, hbody, rfl⟩, hafter, rfl⟩ := htext
  have hlength := length_le_of_membersText hbody
  have hnone : shape.missing? ((members.map Prod.fst).reverse ++ []) = none :=
    missing?_eq_none fun field hfield => by simpa using hwhole field hfield
  have hfuel : members.length < (body ++ '\x7d' :: after).length + 1 := by
    rw [List.length_append]
    omega
  have hread := shape.readObject_members hbody hstores hkeys (fun _ _ => List.not_mem_nil) hnone
    leads_nil hfuel shape.blank after
  rw [List.nil_append] at hread
  rw [List.cons_append, List.append_assoc, List.cons_append, List.nil_append, parse, read,
    skipSpaces_next hbefore (by decide)]
  simp only [if_true, hread, skipSpaces_of_isSpaces hafter]

end Shape

end ContainerCheck.Json
