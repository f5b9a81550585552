import ContainerCheck.Proofs.TableRows
import ContainerCheck.Proofs.TaggedLines

namespace ContainerCheck

open ContainerCheck.Text ContainerCheck.Time ContainerCheck.Log

namespace Text

def letterEscapes : List (Char × Char) :=
  [('0', '\x00'), ('t', '\t'), ('r', '\r'), ('n', '\n'), ('\\', '\\'), ('"', '"'), ('\'', '\'')]

def hexValue (digits : List Char) : Nat :=
  digits.foldl (fun n c => 16 * n + (Json.hexDigit? c).getD 0) 0

/-- Takes a character off the front of a text that shows it. -/
def unshow? : List Char → Option (Char × List Char)
  | [] => none
  | '\\' :: 'u' :: rest =>
    let digits := (rest.drop 1).takeWhile (· ≠ '\x7d')
    some (Char.ofNat (hexValue digits), (rest.drop 1).drop (digits.length + 1))
  | '\\' :: letter :: rest => (letterEscapes.lookup letter).map fun c => (c, rest)
  | c :: rest => some (c, rest)

theorem hexValue_hexadecimal (n : Nat) : hexValue (hexadecimal n) = n := by
  have hdigit {n : Nat} (h : n < 16) : (Json.hexDigit? n.digitChar).getD 0 = n := by
    rw [Json.hexDigit?_of_isHexDigit h (.inl rfl), Option.getD_some]
  induction n using Nat.strongRecOn with
  | ind n ih =>
    by_cases h : n < 16
    · rw [hexadecimal_of_lt h, hexValue, List.foldl_cons, List.foldl_nil, hdigit h]
      omega
    · have hfirst : (hexadecimal (n / 16)).foldl
          (fun n c => 16 * n + (Json.hexDigit? c).getD 0) 0 = n / 16 := ih (n / 16) (by omega)
      rw [hexadecimal_of_ge (by omega), hexValue, List.foldl_append, hfirst, List.foldl_cons,
        List.foldl_nil, hdigit (Nat.mod_lt n (by decide))]
      omega

theorem unshow?_codePoint (c : Char) (rest : List Char) :
    unshow? (codePoint c ++ rest) = some (c, rest) := by
  have hbraces : ∀ n < 16, n.digitChar ≠ '\x7d' := by decide
  have hdigits : ∀ d ∈ hexadecimal c.toNat, decide (d ≠ '\x7d') = true := by
    intro d hd
    obtain ⟨digit, hdigit, rfl⟩ := exists_of_mem_hexadecimal hd
    exact decide_eq_true (hbraces digit hdigit)
  have hrun : (hexadecimal c.toNat ++ '\x7d' :: rest).takeWhile (· ≠ '\x7d') =
      hexadecimal c.toNat := by
    rw [List.takeWhile_append_of_pos hdigits]
    simp
  have htext : codePoint c ++ rest =
      '\\' :: 'u' :: '\x7b' :: (hexadecimal c.toNat ++ '\x7d' :: rest) := by
    simp [codePoint]
  rw [htext, unshow?]
  simp only [List.drop_succ_cons, List.drop_zero, hrun, hexValue_hexadecimal]
  rw [← List.drop_drop, List.drop_left]
  exact congrArg (fun d => some (d, rest)) (Char.ofNat_toNat c)

/-- A character is taken off the text that shows it, in whatever way and whatever follows. -/
theorem unshow?_char (e : Escapes) (c : Char) (rest : List Char) :
    unshow? (e.char c ++ rest) = some (c, rest) := by
  unfold Escapes.char
  split_ifs with h1 h2 h3 h4 h5 h6 h7 h8 h9
  · rw [h1]; rfl
  · rw [h2]; rfl
  · rw [h3]; rfl
  · rw [h4]; rfl
  · rw [h5]; rfl
  · rw [h6.1]; rfl
  · rw [h7.1]; rfl
  · exact unshow?_codePoint c rest
  · exact unshow?_codePoint c rest
  · rw [List.singleton_append]
    unfold unshow?
    split <;> simp_all

theorem char_append_ne_nil (e : Escapes) (c : Char) (rest : List Char) : e.char c ++ rest ≠ [] := by
  intro h
  have hread := congrArg unshow? h
  rw [unshow?_char] at hread
  cases hread

theorem char_append_inj {e : Escapes} {c c' : Char} {rest rest' : List Char}
    (h : e.char c ++ rest = e.char c' ++ rest') : c = c' ∧ rest = rest' := by
  have hread := congrArg unshow? h
  rwa [unshow?_char, unshow?_char, Option.some_inj, Prod.mk.injEq] at hread

theorem flatMap_char_injective (e : Escapes) {text text' : List Char}
    (h : text.flatMap e.char = text'.flatMap e.char) : text = text' := by
  induction text generalizing text' with
  | nil =>
    cases text' with
    | nil => rfl
    | cons c' text' => exact absurd h.symm (char_append_ne_nil e c' _)
  | cons c text ih =>
    cases text' with
    | nil => exact absurd h (char_append_ne_nil e c _)
    | cons c' text' =>
      obtain ⟨rfl, hrest⟩ := char_append_inj h
      rw [ih hrest]

/-- Texts that are spelled alike are the same. -/
theorem spelledChars_injective : Function.Injective spelledChars := by
  intro text text' h
  cases text with
  | nil =>
    cases text' with
    | nil => rfl
    | cons c' text' => exact absurd h.symm (char_append_ne_nil atStart c' _)
  | cons c text =>
    cases text' with
    | nil => exact absurd h (char_append_ne_nil atStart c _)
    | cons c' text' =>
      obtain ⟨rfl, hrest⟩ := char_append_inj h
      rw [flatMap_char_injective afterStart hrest]

end Text

namespace Time

theorem text_injective {i j : Instant} (hi : i.Shown) (hj : j.Shown) {precision : Precision}
    (h : i.text precision = j.text precision) : i = j := by
  have hread := readLenient_text hi precision
  rw [h, readLenient_text hj precision] at hread
  exact (Except.ok.inj hread).symm

end Time

namespace Log

/-- The records whose timestamps are those that can be written, and whose streams are named without
a space. -/
structure Record.IsTabular (record : Record) : Prop where
  timestamp : record.timestamp.Shown
  stream : ' ' ∉ record.stream.name.toList

theorem cutSpace_append {field rest : List Char} (h : ' ' ∉ field) :
    cutSpace (field ++ ' ' :: rest) = some (field, rest) :=
  cutSpace_eq_some_iff.mpr ⟨rfl, h⟩

/-- The columns of a row; the padding stands behind the first space. -/
theorem Record.row_eq (record : Record) :
    record.row.toList = record.timestamp.text .nine ++ ' ' ::
      (List.replicate (32 - (record.timestamp.text .nine).length) ' ' ++
        (record.stream.name.toList ++ ' ' :: spelledChars record.payload.toList)) := by
  have hswap (n : Nat) (rest : List Char) :
      List.replicate n ' ' ++ ' ' :: rest = ' ' :: (List.replicate n ' ' ++ rest) := by
    rw [← List.singleton_append, ← List.append_assoc, ← List.replicate_succ', List.replicate_succ]
    rfl
  rw [row, String.toList_ofList, padRight, List.append_assoc, List.append_assoc, List.cons_append,
    hswap]

theorem Record.row_injective {a b : Record} (ha : a.IsTabular) (hb : b.IsTabular)
    (h : a.row = b.row) : a = b := by
  have hspace (i : Instant) : ' ' ∉ i.text .nine := not_mem_instant (by decide) (by decide) i
  -- The first space ends the timestamp, and so tells the width of the padding.
  have hrow := congrArg (fun row => cutSpace row.toList) h
  simp only [Record.row_eq, cutSpace_append (hspace _), Option.some_inj, Prod.mk.injEq] at hrow
  obtain ⟨hstamp, hbehind⟩ := hrow
  rw [hstamp] at hbehind
  have hcolumns := congrArg cutSpace (List.append_cancel_left hbehind)
  rw [cutSpace_append ha.stream, cutSpace_append hb.stream, Option.some_inj, Prod.mk.injEq]
    at hcolumns
  cases a
  cases b
  rw [Record.mk.injEq]
  exact ⟨text_injective ha.timestamp hb.timestamp hstamp,
    LogStream.name_injective (String.toList_inj.mp hcolumns.1),
    String.toList_inj.mp (spelledChars_injective hcolumns.2)⟩

theorem isTabular_of_decodeTagged {line : List Char} {record : Record}
    (h : decodeTagged line = .ok record) : record.IsTabular := by
  refine ⟨shown_of_decodeTagged h, ?_⟩
  cases hcut : cutFields line with
  | none => simp [decodeTagged, hcut] at h
  | some fields =>
    obtain ⟨rfl, hfields⟩ := cutFields_eq_some_iff.mp hcut
    rw [((decodeTagged_text_eq_ok_iff hfields).mp h).stream]
    exact hfields.stream

/-- Records with the same row are the same. All records of tagged lines are meant, and of the others
those whose stream is named without a space. -/
theorem Record.row_tellsApart :
    (∀ a b : Record, a.IsTabular → b.IsTabular → a.row = b.row → a = b) ∧
      (∀ line record, decodeTagged line = .ok record → record.IsTabular) ∧
      ∀ line record, decode line = .ok record →
        (record.IsTabular ↔ ' ' ∉ record.stream.name.toList) := by
  refine ⟨fun a b ha hb h => Record.row_injective ha hb h,
    fun line record h => isTabular_of_decodeTagged h, fun line record h => ?_⟩
  exact ⟨fun htabular => htabular.stream, fun hstream => ⟨shown_of_decode h, hstream⟩⟩

def leapRecord : Record := ⟨⟨1483228799, 1000000000⟩, .stdout, "\n"⟩

def spelledRecord : Record := ⟨⟨1483228800, 0⟩, .stdout, "\\n"⟩

theorem Record.row_tellsApart_leap :
    leapRecord.IsTabular ∧ spelledRecord.IsTabular ∧ leapRecord.row ≠ spelledRecord.row := by
  have hleap : leapRecord.IsTabular := ⟨⟨by decide, by decide, by decide⟩, by decide⟩
  have hspelled : spelledRecord.IsTabular := ⟨⟨by decide, by decide, by decide⟩, by decide⟩
  refine ⟨hleap, hspelled, fun hrow => ?_⟩
  have hsame := Record.row_tellsApart.1 _ _ hleap hspelled hrow
  exact absurd hsame (by decide)

end Log

end ContainerCheck
