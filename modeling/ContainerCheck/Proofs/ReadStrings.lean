import ContainerCheck.Proofs.SkippedValues
import ContainerCheck.Proofs.Utf8

namespace ContainerCheck.Json

open ContainerCheck.Text

theorem toNat_lt_of_hexDigit? {n : Nat} {c : Char} (h : hexDigit? c = some n) : c.toNat < 128 := by
  simp only [hexDigit?, Char.isDigit, Char.le_def, ge_iff_le, UInt32.le_iff_toNat_le,
    Bool.and_eq_true, decide_eq_true_eq] at h
  have hvalue : c.val.toNat = c.toNat := rfl
  have hnine : '9'.val.toNat = 57 := rfl
  have hf : 'f'.val.toNat = 102 := rfl
  have hF : 'F'.val.toNat = 70 := rfl
  split_ifs at h <;> omega

theorem isHexDigit_of_hexDigit? {n : Nat} {c : Char} (h : hexDigit? c = some n) :
    n < 16 ∧ IsHexDigit n c := by
  -- There are few characters to look at.
  have hall : ∀ m < 128, ∀ n ∈ hexDigit? (Char.ofNat m), n < 16 ∧ IsHexDigit n (Char.ofNat m) := by
    decide +kernel
  have hself : Char.ofNat c.toNat = c := Char.ofNat_toNat c
  have hdigit := hall c.toNat (toNat_lt_of_hexDigit? h)
  rw [hself] at hdigit
  exact hdigit n h

theorem unitSpelling_of_hexQuad? {n : Nat} {a b c d : Char} (h : hexQuad? a b c d = some n) :
    n < 0x10000 ∧ UnitSpelling n ['\\', 'u', a, b, c, d] := by
  simp only [hexQuad?, Option.bind_eq_bind, Option.bind_eq_some_iff, Option.pure_def,
    Option.some.injEq] at h
  obtain ⟨k, hk, l, hl, m, hm, r, hr, rfl⟩ := h
  obtain ⟨hk16, hk⟩ := isHexDigit_of_hexDigit? hk
  obtain ⟨hl16, hl⟩ := isHexDigit_of_hexDigit? hl
  obtain ⟨hm16, hm⟩ := isHexDigit_of_hexDigit? hm
  obtain ⟨hr16, hr⟩ := isHexDigit_of_hexDigit? hr
  refine ⟨by omega, .mk ?_ ?_ ?_ ?_⟩
  · rwa [show ((k * 16 + l) * 256 + m * 16 + r) / 4096 % 16 = k by omega]
  · rwa [show ((k * 16 + l) * 256 + m * 16 + r) / 256 % 16 = l by omega]
  · rwa [show ((k * 16 + l) * 256 + m * 16 + r) / 16 % 16 = m by omega]
  · rwa [show ((k * 16 + l) * 256 + m * 16 + r) % 16 = r by omega]

theorem mem_shortEscapes_of_simpleEscape? {letter c : Char} (h : simpleEscape? letter = some c) :
    (letter, c) ∈ shortEscapes := by
  unfold simpleEscape? at h
  split_ifs at h with h₁ h₂ h₃ h₄ h₅ h₆ h₇ h₈ <;> cases h <;> subst_vars <;> decide

theorem isPlain_of_readString {c : Char} (hquote : c ≠ '"') (hslash : c ≠ '\\')
    (hcontrol : ¬ c < ' ') : isPlain c = true := by
  have hle : 0x20 ≤ c.toNat := by
    rw [Char.lt_def, UInt32.lt_iff_toNat_lt] at hcontrol
    exact Nat.not_lt.mp hcontrol
  simp [isPlain, hle, hquote, hslash]

theorem charSpelling_unit {n : Nat} {written : List Char} (hn : n < 0x10000)
    (hlow : isLowSurrogate n = false) (hhigh : isHighSurrogate n = false)
    (h : UnitSpelling n written) : CharSpelling (Char.ofNat n) written := by
  have hvalue : (Char.ofNat n).toNat = n := by
    simp only [isLowSurrogate, isHighSurrogate, Bool.and_eq_false_iff, decide_eq_false_iff_not]
      at hlow hhigh
    exact toNat_ofNat_valid (by omega)
  exact .unit (by rwa [hvalue]) (by rwa [hvalue])

theorem charSpelling_pair {n m : Nat} {high low : List Char} (hhigh : isHighSurrogate n = true)
    (hlow : isLowSurrogate m = true) (hfirst : UnitSpelling n high) (hsecond : UnitSpelling m low) :
    CharSpelling (pairChar n m) (high ++ low) := by
  simp only [isLowSurrogate, isHighSurrogate, Bool.and_eq_true, decide_eq_true_eq] at hlow hhigh
  have hvalue : (pairChar n m).toNat = (n - 0xd800) * 0x400 + (m - 0xdc00) + 0x10000 :=
    toNat_ofNat_valid (by omega)
  refine .pair ?_ ?_ ?_
  · omega
  · rwa [hvalue, show 0xd800 + ((n - 0xd800) * 0x400 + (m - 0xdc00) + 0x10000 - 0x10000) / 0x400 = n
      by omega]
  · rwa [hvalue, show 0xdc00 + ((n - 0xd800) * 0x400 + (m - 0xdc00) + 0x10000 - 0x10000) % 0x400 = m
      by omega]

section

variable {text rest after piece : List Char} {c : Char}

/-- A character in front of a string that is spelled. -/
theorem exists_spelling_of_consChar (hc : CharSpelling c piece)
    (h : consChar c (readString after) = .ok (text, rest))
    (ih : ∀ {text}, readString after = .ok (text, rest) →
      ∃ written, after = written ++ '"' :: rest ∧ Spelling text written) :
    ∃ written, piece ++ after = written ++ '"' :: rest ∧ Spelling text written := by
  cases hread : readString after with
  | error failure =>
    rw [hread] at h
    cases h
  | ok entry =>
    obtain ⟨tail, rest'⟩ := entry
    rw [hread] at h
    cases h
    obtain ⟨written, rfl, hwritten⟩ := ih hread
    exact ⟨piece ++ written, (List.append_assoc ..).symm, .cons hc hwritten⟩

/-- What is read as a string is spelled up to the quote that closes it. -/
theorem exists_spelling_of_readString {source : List Char}
    (h : readString source = .ok (text, rest)) :
    ∃ written, source = written ++ '"' :: rest ∧ Spelling text written := by
  -- The reader succeeds at the closing quote, and behind a character, an escape or a pair.
  fun_induction readString source generalizing text with
  | case2 =>
    cases h
    exact ⟨[], rfl, .nil⟩
  | case9 e f g h' n hquad hnot hhigh e' f' g' h'' after m hquad' hlow _ ih =>
    obtain ⟨-, hfirst⟩ := unitSpelling_of_hexQuad? hquad
    obtain ⟨-, hsecond⟩ := unitSpelling_of_hexQuad? hquad'
    exact exists_spelling_of_consChar (charSpelling_pair hhigh hlow hfirst hsecond) h ih
  | case14 e f g h' after n hquad hlow hhigh _ ih =>
    obtain ⟨hn, hunit⟩ := unitSpelling_of_hexQuad? hquad
    have hc := charSpelling_unit hn (Bool.eq_false_iff.mpr hlow) (Bool.eq_false_iff.mpr hhigh) hunit
    exact exists_spelling_of_consChar hc h ih
  | case16 letter after _ c hescape _ ih =>
    exact exists_spelling_of_consChar (.short (mem_shortEscapes_of_simpleEscape? hescape)) h ih
  | case19 c after hquote hslash hcontrol ih =>
    exact exists_spelling_of_consChar (.bare (isPlain_of_readString hquote hslash hcontrol)) h ih
  | _ => cases h

theorem RawText.behind {content : List Char} (h : RawText content) (hc : CharSpelling c piece) :
    RawText (piece ++ content) := by
  cases hc with
  | bare hc => exact .bare hc h
  | short hc => exact .short hc h
  | unit hc hunit => exact .unit hc hunit h
  | pair hc hhigh hlow =>
    have hvalid : c.toNat < 0xd800 ∨ 0xdfff < c.toNat ∧ c.toNat < 0x110000 := c.valid
    rw [List.append_assoc]
    exact .unit (by omega) hhigh (.unit (by omega) hlow h)

theorem rawText_of_spelling {written : List Char} (h : Spelling text written) :
    RawText written := by
  induction h with
  | nil => exact .nil
  | cons hc _ ih => exact ih.behind hc

/-- A string of the right form is read if it spells a text. -/
theorem readString_eq_ok_iff {content rest' : List Char} (h : RawText content) :
    readString (content ++ '"' :: rest) = .ok (text, rest') ↔
      Spelling text content ∧ rest' = rest := by
  constructor
  · intro hread
    obtain ⟨written, htext, hwritten⟩ := exists_spelling_of_readString hread
    -- Both contents end at the first quote that closes a string.
    have hrest : rest' = rest := by
      have hskip := skipString_raw h rest
      rw [htext, skipString_raw (rawText_of_spelling hwritten) rest'] at hskip
      exact Except.ok.inj hskip
    subst hrest
    rw [List.append_cancel_right htext]
    exact ⟨hwritten, rfl⟩
  · rintro ⟨hspelling, rfl⟩
    exact readString_written rest' hspelling

theorem rawText_of_jsonText {tail : List Char} (h : JsonText .value ('"' :: tail)) :
    ∃ content, RawText content ∧ tail = content ++ ['"'] := by
  generalize hpiece : Piece.value = piece at h
  generalize htext : '"' :: tail = value at h
  cases h with
  | string hcontent =>
    cases htext
    exact ⟨_, hcontent, rfl⟩
  | number hnumeral =>
    obtain ⟨c, rest, rfl, hdigit⟩ := hnumeral.begins
    cases htext
    exact absurd hdigit (by decide)
  | empty frame => cases frame <;> cases htext
  | @full frame => cases frame <;> cases htext
  | last => cases hpiece
  | more => cases hpiece
  | _ => cases htext

theorem stringText_unique {text text' : String} {written : List Char} (h : StringText text written)
    (h' : StringText text' written) : text = text' := by
  have hread := Reader.named_takes "" h [] [] nofun
  rw [Reader.named_takes "" h' [] [] nofun] at hread
  cases hread
  rfl

/-- What a reader of strings makes of a value. -/
theorem named_eq_ok_iff {value spaces rest' : List Char} (h : JsonText .value value)
    (hspaces : IsSpaces spaces) (expected : String) {text : String} :
    Reader.named expected (spaces ++ (value ++ rest)) = .ok (text, rest') ↔
      StringText text value ∧ rest' = rest := by
  obtain ⟨⟨c, tail, rfl, hspace, -⟩, -⟩ := passed_of_jsonText h
  rw [Reader.named, List.cons_append, skipSpaces_next hspaces hspace]
  by_cases hc : c = '"'
  · subst hc
    obtain ⟨content, hcontent, rfl⟩ := rawText_of_jsonText h
    rw [List.append_assoc, List.cons_append, List.nil_append]
    simp only [if_true]
    constructor
    · intro hnamed
      split at hnamed
      · cases hnamed
      · next result _ hread =>
        cases hnamed
        obtain ⟨hspelling, hrest⟩ := (readString_eq_ok_iff hcontent).mp hread
        exact ⟨⟨content, by rwa [String.toList_ofList], rfl⟩, hrest⟩
    · rintro ⟨⟨content', hspelling, hsame⟩, rfl⟩
      have hcontents : content = content' := List.append_cancel_right (List.cons.inj hsame).2
      rw [← hcontents] at hspelling
      simp only [readString_written rest' hspelling, String.ofList_toList]
  · simp only [hc, if_false]
    refine iff_of_false (fun h => by cases h) ?_
    rintro ⟨⟨content, -, hquote⟩, -⟩
    cases hquote
    exact hc rfl

end

end ContainerCheck.Json
