import ContainerCheck.Text.Utf8
import Mathlib.Tactic.SplitIfs

namespace ContainerCheck.Text

theorem width?_eq (a : UInt8) :
    width? a =
      if a.toNat < 0x80 then some 1
      else if 0xc2 ≤ a.toNat ∧ a.toNat ≤ 0xdf then some 2
      else if 0xe0 ≤ a.toNat ∧ a.toNat ≤ 0xef then some 3
      else if 0xf0 ≤ a.toNat ∧ a.toNat ≤ 0xf4 then some 4
      else none := by
  simp [width?, UInt8.lt_iff_toNat_lt, UInt8.le_iff_toNat_le]

theorem width?_bounds {a : UInt8} {width : Nat} (h : width? a = some width) :
    width = 1 ∧ a.toNat < 0x80 ∨ width = 2 ∧ 0xc2 ≤ a.toNat ∧ a.toNat ≤ 0xdf ∨
      width = 3 ∧ 0xe0 ≤ a.toNat ∧ a.toNat ≤ 0xef ∨
      width = 4 ∧ 0xf0 ≤ a.toNat ∧ a.toNat ≤ 0xf4 := by
  rw [width?_eq] at h
  split_ifs at h <;> simp at h <;> omega

theorem isContinuation_iff {b : UInt8} :
    isContinuation b = true ↔ 0x80 ≤ b.toNat ∧ b.toNat ≤ 0xbf := by
  simp [isContinuation, UInt8.le_iff_toNat_le]

theorem isSecond_iff {a b : UInt8} :
    isSecond a b = true ↔ (0x80 ≤ b.toNat ∧ b.toNat ≤ 0xbf) ∧
      (a.toNat = 0xe0 → 0xa0 ≤ b.toNat) ∧ (a.toNat = 0xed → b.toNat ≤ 0x9f) ∧
      (a.toNat = 0xf0 → 0x90 ≤ b.toNat) ∧ (a.toNat = 0xf4 → b.toNat ≤ 0x8f) := by
  simp only [isSecond, beq_iff_eq, ← UInt8.toNat_inj]
  split_ifs <;> simp_all [UInt8.le_iff_toNat_le, isContinuation] <;> omega

/-- The bytes that are read as a character, by what each of them may be. -/
inductive CharBytes : List UInt8 → Char → Prop
  | one {a : UInt8} (hw : width? a = some 1) : CharBytes [a] (Char.ofNat a.toNat)
  | two {a b : UInt8} (hw : width? a = some 2) (hb : isSecond a b = true) :
      CharBytes [a, b] (char2 a b)
  | three {a b c : UInt8} (hw : width? a = some 3) (hb : isSecond a b = true)
      (hc : isContinuation c = true) : CharBytes [a, b, c] (char3 a b c)
  | four {a b c d : UInt8} (hw : width? a = some 4) (hb : isSecond a b = true)
      (hc : isContinuation c = true) (hd : isContinuation d = true) :
      CharBytes [a, b, c, d] (char4 a b c d)

theorem CharBytes.decodeLossy_append {bytes : List UInt8} {c : Char} (h : CharBytes bytes c)
    (rest : List UInt8) : decodeLossy (bytes ++ rest) = c :: decodeLossy rest := by
  cases h with
  | one hw =>
    rw [List.cons_append, decodeLossy.eq_def]
    simp only [hw, List.nil_append]
  | two hw hb =>
    rw [List.cons_append, decodeLossy.eq_def]
    simp only [hw, hb, List.cons_append, List.nil_append, if_true]
  | three hw hb hc =>
    rw [List.cons_append, decodeLossy.eq_def]
    simp only [hw, hb, hc, List.cons_append, List.nil_append, if_true]
  | four hw hb hc hd =>
    rw [List.cons_append, decodeLossy.eq_def]
    simp only [hw, hb, hc, hd, List.cons_append, List.nil_append, if_true]

/-- The numbers of characters leave out the surrogates. -/
theorem toNat_valid (c : Char) :
    c.val.toNat < 0xd800 ∨ 0xdfff < c.val.toNat ∧ c.val.toNat < 0x110000 :=
  c.valid

theorem toNat_ofNat_valid {v : Nat} (h : v < 0xd800 ∨ 0xdfff < v ∧ v < 0x110000) :
    (Char.ofNat v).val.toNat = v := by
  have hv : v.isValidChar := h
  rw [Char.ofNat, dif_pos hv]
  rfl

theorem toNat_ofNat_byte {n : Nat} (h : n < 256) : (UInt8.ofNat n).toNat = n := by
  rw [UInt8.toNat_ofNat', Nat.mod_eq_of_lt h]

section

variable {v : Nat}

theorem charBytes_number_one (h : v < 0x80) : CharBytes [UInt8.ofNat v] (Char.ofNat v) := by
  have ha := toNat_ofNat_byte (show v < 256 by omega)
  have hw : width? (UInt8.ofNat v) = some 1 := by rw [width?_eq, ha, if_pos (by omega)]
  have hbytes := CharBytes.one hw
  rwa [ha] at hbytes

theorem charBytes_number_two (hl : 0x80 ≤ v) (hu : v < 0x800) :
    CharBytes [UInt8.ofNat (v / 64 % 0x20 + 0xc0), UInt8.ofNat (v % 0x40 + 0x80)]
      (Char.ofNat v) := by
  have ha := toNat_ofNat_byte (show v / 64 % 0x20 + 0xc0 < 256 by omega)
  have hb := toNat_ofNat_byte (show v % 0x40 + 0x80 < 256 by omega)
  have hw : width? (UInt8.ofNat (v / 64 % 0x20 + 0xc0)) = some 2 := by
    rw [width?_eq, ha, if_neg (by omega), if_pos (by omega)]
  have hs : isSecond (UInt8.ofNat (v / 64 % 0x20 + 0xc0)) (UInt8.ofNat (v % 0x40 + 0x80)) =
      true := by
    rw [isSecond_iff, ha, hb]
    omega
  have hv : (v / 64 % 0x20 + 0xc0) % 0x20 * 0x40 + (v % 0x40 + 0x80) % 0x40 = v := by omega
  have hbytes := CharBytes.two hw hs
  rwa [char2, ha, hb, hv] at hbytes

theorem charBytes_number_three (hl : 0x800 ≤ v) (hu : v < 0x10000)
    (hvalid : v < 0xd800 ∨ 0xdfff < v) :
    CharBytes [UInt8.ofNat (v / 4096 % 0x10 + 0xe0), UInt8.ofNat (v / 64 % 0x40 + 0x80),
      UInt8.ofNat (v % 0x40 + 0x80)] (Char.ofNat v) := by
  have ha := toNat_ofNat_byte (show v / 4096 % 0x10 + 0xe0 < 256 by omega)
  have hb := toNat_ofNat_byte (show v / 64 % 0x40 + 0x80 < 256 by omega)
  have hc := toNat_ofNat_byte (show v % 0x40 + 0x80 < 256 by omega)
  have hw : width? (UInt8.ofNat (v / 4096 % 0x10 + 0xe0)) = some 3 := by
    rw [width?_eq, ha, if_neg (by omega), if_neg (by omega), if_pos (by omega)]
  have hs : isSecond (UInt8.ofNat (v / 4096 % 0x10 + 0xe0))
      (UInt8.ofNat (v / 64 % 0x40 + 0x80)) = true := by
    rw [isSecond_iff, ha, hb]
    omega
  have ht : isContinuation (UInt8.ofNat (v % 0x40 + 0x80)) = true := by
    rw [isContinuation_iff, hc]
    omega
  have hv : (v / 4096 % 0x10 + 0xe0) % 0x10 * 0x1000 + (v / 64 % 0x40 + 0x80) % 0x40 * 0x40 +
      (v % 0x40 + 0x80) % 0x40 = v := by omega
  have hbytes := CharBytes.three hw hs ht
  rwa [char3, ha, hb, hc, hv] at hbytes

theorem charBytes_number_four (hl : 0x10000 ≤ v) (hu : v < 0x110000) :
    CharBytes [UInt8.ofNat (v / 262144 % 0x08 + 0xf0), UInt8.ofNat (v / 4096 % 0x40 + 0x80),
      UInt8.ofNat (v / 64 % 0x40 + 0x80), UInt8.ofNat (v % 0x40 + 0x80)] (Char.ofNat v) := by
  have ha := toNat_ofNat_byte (show v / 262144 % 0x08 + 0xf0 < 256 by omega)
  have hb := toNat_ofNat_byte (show v / 4096 % 0x40 + 0x80 < 256 by omega)
  have hc := toNat_ofNat_byte (show v / 64 % 0x40 + 0x80 < 256 by omega)
  have hd := toNat_ofNat_byte (show v % 0x40 + 0x80 < 256 by omega)
  have hw : width? (UInt8.ofNat (v / 262144 % 0x08 + 0xf0)) = some 4 := by
    rw [width?_eq, ha, if_neg (by omega), if_neg (by omega), if_neg (by omega),
      if_pos (by omega)]
  have hs : isSecond (UInt8.ofNat (v / 262144 % 0x08 + 0xf0))
      (UInt8.ofNat (v / 4096 % 0x40 + 0x80)) = true := by
    rw [isSecond_iff, ha, hb]
    omega
  have ht : isContinuation (UInt8.ofNat (v / 64 % 0x40 + 0x80)) = true := by
    rw [isContinuation_iff, hc]
    omega
  have hu : isContinuation (UInt8.ofNat (v % 0x40 + 0x80)) = true := by
    rw [isContinuation_iff, hd]
    omega
  have hv : (v / 262144 % 0x08 + 0xf0) % 0x08 * 0x40000 + (v / 4096 % 0x40 + 0x80) % 0x40 * 0x1000 +
      (v / 64 % 0x40 + 0x80) % 0x40 * 0x40 + (v % 0x40 + 0x80) % 0x40 = v := by omega
  have hbytes := CharBytes.four hw hs ht hu
  rwa [char4, ha, hb, hc, hd, hv] at hbytes

end

theorem charBytes_utf8EncodeChar (c : Char) : CharBytes (String.utf8EncodeChar c) c := by
  have hvalid := toNat_valid c
  have hself : Char.ofNat c.val.toNat = c := Char.ofNat_toNat c
  unfold String.utf8EncodeChar
  dsimp only
  generalize c.val.toNat = v at hvalid hself
  rw [← hself]
  split_ifs with h1 h2 h3
  · exact charBytes_number_one (by omega)
  · exact charBytes_number_two (by omega) (by omega)
  · exact charBytes_number_three (by omega) (by omega) (by omega)
  · exact charBytes_number_four (by omega) (by omega)

/-- A character is read from its bytes, whatever follows them. -/
theorem decodeLossy_utf8EncodeChar_append (c : Char) (rest : List UInt8) :
    decodeLossy (String.utf8EncodeChar c ++ rest) = c :: decodeLossy rest :=
  (charBytes_utf8EncodeChar c).decodeLossy_append rest

/-- The bytes that are read as a character are those it is written with. -/
theorem CharBytes.encode_eq {bytes : List UInt8} {c : Char} (h : CharBytes bytes c) :
    String.utf8EncodeChar c = bytes := by
  have hbyte : ∀ {x : UInt8} {n : Nat}, n = x.toNat → UInt8.ofNat n = x := by
    rintro x n rfl
    exact UInt8.ofNat_toNat
  unfold String.utf8EncodeChar
  dsimp only
  cases h with
  | one hw =>
    have hlead := width?_bounds hw
    rw [toNat_ofNat_valid (by omega), if_pos (by omega)]
    simp only [List.cons.injEq, and_true]
    exact hbyte rfl
  | two hw hb =>
    have hlead := width?_bounds hw
    have hsecond := isSecond_iff.mp hb
    rw [char2, toNat_ofNat_valid (by omega), if_neg (by omega), if_pos (by omega)]
    simp only [List.cons.injEq, and_true]
    exact ⟨hbyte (by omega), hbyte (by omega)⟩
  | three hw hb hc =>
    have hlead := width?_bounds hw
    have hsecond := isSecond_iff.mp hb
    have hthird := isContinuation_iff.mp hc
    rw [char3, toNat_ofNat_valid (by omega), if_neg (by omega), if_neg (by omega),
      if_pos (by omega)]
    simp only [List.cons.injEq, and_true]
    exact ⟨hbyte (by omega), hbyte (by omega), hbyte (by omega)⟩
  | four hw hb hc hd =>
    have hlead := width?_bounds hw
    have hsecond := isSecond_iff.mp hb
    have hthird := isContinuation_iff.mp hc
    have hfourth := isContinuation_iff.mp hd
    rw [char4, toNat_ofNat_valid (by omega), if_neg (by omega), if_neg (by omega),
      if_neg (by omega)]
    simp only [List.cons.injEq, and_true]
    exact ⟨hbyte (by omega), hbyte (by omega), hbyte (by omega), hbyte (by omega)⟩

/-- Reading undoes writing, and goes on with whatever follows. -/
theorem decodeLossy_encode_append (text : List Char) (rest : List UInt8) :
    decodeLossy (encode text ++ rest) = text ++ decodeLossy rest := by
  induction text with
  | nil => rfl
  | cons c text ih =>
    rw [encode_cons, List.append_assoc, decodeLossy_utf8EncodeChar_append, ih, List.cons_append]

/-- A byte below 128 stands in a text for its own character only. -/
theorem mem_utf8EncodeChar_iff {b : UInt8} (hb : b.toNat < 0x80) (c : Char) :
    b ∈ String.utf8EncodeChar c ↔ c.val.toNat = b.toNat := by
  have hvalid := toNat_valid c
  have hbyte : ∀ n, 0x80 ≤ n → n < 256 → (b = UInt8.ofNat n) = False := by
    intro n hl hu
    rw [← UInt8.toNat_inj, toNat_ofNat_byte hu, eq_iff_iff, iff_false]
    omega
  unfold String.utf8EncodeChar
  dsimp only
  generalize c.val.toNat = v at hvalid
  split_ifs with h1 h2 h3
  · rw [List.mem_singleton, ← UInt8.toNat_inj, toNat_ofNat_byte (show v < 256 by omega)]
    exact eq_comm
  -- Every byte of a longer form is 128 or more, and so is the character.
  · simp only [List.mem_cons, List.not_mem_nil, or_self, false_iff,
      hbyte (v / 64 % 0x20 + 0xc0) (by omega) (by omega),
      hbyte (v % 0x40 + 0x80) (by omega) (by omega)]
    omega
  · simp only [List.mem_cons, List.not_mem_nil, or_self, false_iff,
      hbyte (v / 4096 % 0x10 + 0xe0) (by omega) (by omega),
      hbyte (v / 64 % 0x40 + 0x80) (by omega) (by omega),
      hbyte (v % 0x40 + 0x80) (by omega) (by omega)]
    omega
  · simp only [List.mem_cons, List.not_mem_nil, or_self, false_iff,
      hbyte (v / 262144 % 0x08 + 0xf0) (by omega) (by omega),
      hbyte (v / 4096 % 0x40 + 0x80) (by omega) (by omega),
      hbyte (v / 64 % 0x40 + 0x80) (by omega) (by omega),
      hbyte (v % 0x40 + 0x80) (by omega) (by omega)]
    omega

theorem newline_mem_encode_iff (text : List Char) : 10 ∈ encode text ↔ '\n' ∈ text := by
  rw [encode, List.mem_flatMap]
  constructor
  · rintro ⟨c, hc, h⟩
    have hval := (mem_utf8EncodeChar_iff (by decide) c).mp h
    have hchar : c = '\n' := Char.ext (UInt32.toNat_inj.mp hval)
    rwa [← hchar]
  · intro h
    exact ⟨'\n', h, (mem_utf8EncodeChar_iff (by decide) '\n').mpr rfl⟩

theorem eq_ten_of_ofNat {n : Nat} (h : Char.ofNat n = '\n') : n = 10 := by
  by_cases hn : n.isValidChar
  · rw [← toNat_ofNat_valid hn, h]
    rfl
  · rw [Char.ofNat, dif_neg hn] at h
    exact absurd h (by decide)

/-- Only a character of one byte is a newline: longer forms of small numbers are out. -/
theorem char2_ne_newline {a : UInt8} (ha : width? a = some 2) (b : UInt8) : char2 a b ≠ '\n' := by
  intro h
  have hvalue := eq_ten_of_ofNat h
  have hlead := width?_bounds ha
  omega

theorem char3_ne_newline {a b : UInt8} (ha : width? a = some 3) (hb : isSecond a b = true)
    (c : UInt8) : char3 a b c ≠ '\n' := by
  intro h
  have hvalue := eq_ten_of_ofNat h
  have hlead := width?_bounds ha
  have hsecond := isSecond_iff.mp hb
  omega

theorem char4_ne_newline {a b : UInt8} (ha : width? a = some 4) (hb : isSecond a b = true)
    (c d : UInt8) : char4 a b c d ≠ '\n' := by
  intro h
  have hvalue := eq_ten_of_ofNat h
  have hlead := width?_bounds ha
  have hsecond := isSecond_iff.mp hb
  omega

/-- A newline is read from its own byte only. -/
theorem newline_mem_of_decodeLossy {bytes : List UInt8} (h : '\n' ∈ decodeLossy bytes) :
    10 ∈ bytes := by
  have hreplacement : '\n' ≠ replacement := by decide
  fun_induction decodeLossy bytes with
  | case1 => simp at h
  | case3 a rest hw ih =>
    rcases List.mem_cons.mp h with h | h
    · have ha : a = 10 := UInt8.toNat_inj.mp (eq_ten_of_ofNat h.symm)
      simp [ha]
    · exact List.mem_cons_of_mem _ (ih h)
  | case5 a hw b rest hb ih =>
    have hchar := (char2_ne_newline hw b).symm
    simp_all
  | case9 a hw b hb c rest hc ih =>
    have hchar := (char3_ne_newline hw hb c).symm
    simp_all
  | case15 a width h1 h2 h3 hw b hb c hc d rest hd ih =>
    have hwidth : width = 4 := by grind [width?_bounds hw]
    have hchar := (char4_ne_newline (hwidth ▸ hw) hb c d).symm
    simp_all
  -- In the other cases a replacement is read, or nothing.
  | _ => simp_all

end ContainerCheck.Text
