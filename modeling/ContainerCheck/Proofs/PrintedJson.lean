import ContainerCheck.Json.Value
import ContainerCheck.Proofs.WrittenJson

namespace ContainerCheck.Json

open ContainerCheck.Text

/-- A printed character is one of the spellings of it. -/
theorem charSpelling_escapeChar (c : Char) : CharSpelling c (escapeChar c) := by
  unfold escapeChar
  split_ifs with hquote hslash hback hform hfeed hreturn htab hcontrol
  · subst hquote
    exact .short (by decide)
  · subst hslash
    exact .short (by decide)
  · subst hback
    exact .short (by decide)
  · subst hform
    exact .short (by decide)
  · subst hfeed
    exact .short (by decide)
  · subst hreturn
    exact .short (by decide)
  · subst htab
    exact .short (by decide)
  · have hlow : c.toNat < 32 := by
      rw [Char.lt_def, UInt32.lt_iff_toNat_lt] at hcontrol
      exact hcontrol
    have hfirst : c.toNat / 4096 % 16 = 0 := by omega
    have hsecond : c.toNat / 256 % 16 = 0 := by omega
    have hthird : c.toNat / 16 % 16 = c.toNat / 16 := by omega
    refine .unit (by omega) ⟨.inl ?_, .inl ?_, .inl ?_, .inl rfl⟩
    · rw [hfirst]
      rfl
    · rw [hsecond]
      rfl
    · rw [hthird]
  · refine .bare ?_
    rw [Char.lt_def, UInt32.lt_iff_toNat_lt, not_lt] at hcontrol
    simp only [isPlain, Bool.and_eq_true, decide_eq_true_eq, bne_iff_ne]
    exact ⟨⟨hcontrol, hquote⟩, hslash⟩

theorem spelling_flatMap (text : List Char) : Spelling text (text.flatMap escapeChar) := by
  induction text with
  | nil => exact .nil
  | cons c text ih =>
    rw [List.flatMap_cons]
    exact .cons (charSpelling_escapeChar c) ih

theorem stringText_writeString (text : String) : StringText text (writeString text.toList) :=
  ⟨_, spelling_flatMap text.toList, rfl⟩

theorem stringText_chars (text : String) : StringText text (Value.string text).chars := by
  rw [Value.chars]
  exact stringText_writeString text

theorem spaced_self {Written : List Char → Prop} {text : List Char} (h : Written text) :
    Spaced Written text :=
  ⟨[], text, [], by simp [IsSpaces], h, by simp [IsSpaces], by simp⟩

/-- Members are printed in one of the ways to write them, if each value is. -/
theorem membersText_chars {β : Type} {Written : β → List Char → Prop} {value : β → Value}
    (h : ∀ item, Written item (value item).chars) (member : String × β)
    (members : List (String × β)) :
    MembersText Written (member :: members)
      (membersChars ((member :: members).map fun member => (member.1, value member.2))) := by
  have hmember (member : String × β) : MemberText Written member
      (writeString member.1.toList ++ ':' :: (value member.2).chars) :=
    ⟨_, _, spaced_self (stringText_writeString member.1), spaced_self (h member.2), rfl⟩
  induction members generalizing member with
  | nil => exact .last (hmember member)
  | cons next members ih => exact .more (hmember member) (ih next)

def stringMembers (members : List (String × String)) : List (String × Value) :=
  members.map fun member => (member.1, .string member.2)

/-- An object with string members is printed in one of the ways to write it. -/
theorem objectText_chars {members : List (String × String)} (h : members ≠ []) :
    ObjectText StringText members (Value.object (stringMembers members)).chars := by
  obtain ⟨member, members, rfl⟩ := List.exists_cons_of_ne_nil h
  exact ⟨_, membersText_chars stringText_chars member members, by simp [Value.chars, stringMembers]⟩

def IsPrintable (text : List Char) : Prop := ∀ c ∈ text, 32 ≤ c.toNat

instance (text : List Char) : Decidable (IsPrintable text) :=
  List.decidableBAll _ text

theorem IsPrintable.append {a b : List Char} (ha : IsPrintable a) (hb : IsPrintable b) :
    IsPrintable (a ++ b) := by
  intro c hc
  rcases List.mem_append.mp hc with h | h
  · exact ha c h
  · exact hb c h

theorem IsPrintable.cons {c : Char} {text : List Char} (hc : 32 ≤ c.toNat) (h : IsPrintable text) :
    IsPrintable (c :: text) := by
  intro d hd
  rcases List.mem_cons.mp hd with rfl | hd
  · exact hc
  · exact h d hd

theorem isPrintable_digits {digits : List Char} (h : ∀ c ∈ digits, c.isDigit = true) :
    IsPrintable digits := by
  intro c hc
  have hdigit := h c hc
  simp only [Char.isDigit, ge_iff_le, UInt32.le_iff_toNat_le, Bool.and_eq_true,
    decide_eq_true_eq] at hdigit
  exact Nat.le_trans (by decide) hdigit.1

theorem printable_of_isHexDigit {n : Nat} {c : Char} (h : IsHexDigit (n % 16) c) :
    32 ≤ c.toNat := by
  have hdigits : ∀ n < 16, 32 ≤ n.digitChar.toNat ∧ 32 ≤ n.digitChar.toUpper.toNat := by decide
  have hn := hdigits (n % 16) (Nat.mod_lt _ (by decide))
  rcases h with rfl | rfl
  · exact hn.1
  · exact hn.2

theorem isPrintable_of_unitSpelling {n : Nat} {written : List Char} (h : UnitSpelling n written) :
    IsPrintable written := by
  obtain ⟨ha, hb, hc, hd⟩ := h
  exact .cons (by decide) <| .cons (by decide) <| .cons (printable_of_isHexDigit ha) <|
    .cons (printable_of_isHexDigit hb) <| .cons (printable_of_isHexDigit hc) <|
    .cons (printable_of_isHexDigit hd) (by decide)

theorem isPrintable_of_charSpelling {c : Char} {written : List Char} (h : CharSpelling c written) :
    IsPrintable written := by
  cases h with
  | bare h =>
    simp only [isPlain, Bool.and_eq_true, decide_eq_true_eq] at h
    exact .cons h.1.1 (by decide)
  | short h =>
    have hletters : ∀ escape ∈ shortEscapes, 32 ≤ escape.1.toNat := by decide
    exact .cons (by decide) (.cons (hletters _ h) (by decide))
  | unit _ h => exact isPrintable_of_unitSpelling h
  | pair _ hhigh hlow =>
    exact (isPrintable_of_unitSpelling hhigh).append (isPrintable_of_unitSpelling hlow)

theorem isPrintable_of_spelling {text written : List Char} (h : Spelling text written) :
    IsPrintable written := by
  induction h with
  | nil => decide
  | cons hc _ ih => exact (isPrintable_of_charSpelling hc).append ih

/-- A string has no control in it, in whatever way it is written. -/
theorem isPrintable_of_stringText {text : String} {written : List Char}
    (h : StringText text written) : IsPrintable written := by
  obtain ⟨content, hcontent, rfl⟩ := h
  exact IsPrintable.append (.cons (by decide) (isPrintable_of_spelling hcontent)) (by decide)

theorem isPrintable_writeString (text : String) : IsPrintable (writeString text.toList) :=
  isPrintable_of_stringText (stringText_writeString text)

mutual

/-- A printed value has no control in it. -/
theorem isPrintable_chars (value : Value) : IsPrintable value.chars := by
  match value with
  | .null => decide
  | .boolean true => decide
  | .boolean false => decide
  | .number value =>
    rw [Value.chars]
    exact isPrintable_digits fun c hc => isDigit_of_mem_decimal hc
  | .string value =>
    rw [Value.chars]
    exact isPrintable_writeString value
  | .list items =>
    rw [Value.chars]
    exact .append (.cons (by decide) (isPrintable_itemsChars items)) (by decide)
  | .object members =>
    rw [Value.chars]
    exact .append (.cons (by decide) (isPrintable_membersChars members)) (by decide)

theorem isPrintable_itemsChars (items : List Value) : IsPrintable (itemsChars items) := by
  match items with
  | [] => decide
  | [item] =>
    rw [itemsChars]
    exact isPrintable_chars item
  | item :: next :: rest =>
    rw [itemsChars]
    · exact .append (isPrintable_chars item) (.cons (by decide) (isPrintable_itemsChars _))
    · simp

theorem isPrintable_membersChars (members : List (String × Value)) :
    IsPrintable (membersChars members) := by
  match members with
  | [] => decide
  | [(key, value)] =>
    rw [membersChars]
    exact .append (isPrintable_writeString _) (.cons (by decide) (isPrintable_chars value))
  | (key, value) :: next :: rest =>
    rw [membersChars]
    · have hmember : IsPrintable (writeString key.toList ++ ':' :: value.chars) :=
        .append (isPrintable_writeString _) (.cons (by decide) (isPrintable_chars value))
      exact .append hmember (.cons (by decide) (isPrintable_membersChars _))
    · simp

end

end ContainerCheck.Json
