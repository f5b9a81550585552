import ContainerCheck.Proofs.TaggedFile
import ContainerCheck.Time.Lenient
import Mathlib.Data.List.Induction

namespace ContainerCheck.Time

open ContainerCheck.Log ContainerCheck.Text

theorem digitsValue_lt {digits : List Char} (h : ∀ c ∈ digits, c.isDigit = true) :
    digitsValue digits < Nat.pow 10 digits.length := by
  induction digits using List.reverseRecOn with
  | nil => decide
  | append_singleton digits c ih =>
    have hdigits := ih fun d hd => h d (List.mem_append_left _ hd)
    have hc := h c (by simp)
    simp only [Char.isDigit, ge_iff_le, UInt32.le_iff_toNat_le, Bool.and_eq_true,
      decide_eq_true_eq] at hc
    have hlast : digitValue c ≤ 9 := by
      have hupper : c.toNat ≤ 57 := hc.2
      unfold digitValue
      omega
    have hpower : Nat.pow 10 (digits.length + 1) = Nat.pow 10 digits.length * 10 := rfl
    rw [digitsValue_append_singleton, List.length_append, List.length_singleton, hpower]
    omega

def StartsWithDigit (text : List Char) : Prop := ∃ c rest, text = c :: rest ∧ c.isDigit = true

theorem StartsWithDigit.dropBlanks {text : List Char} (h : StartsWithDigit text) :
    dropBlanks text = text := by
  obtain ⟨c, rest, rfl, hdigit⟩ := h
  exact dropBlanks_cons_of_not_blank (not_isBlank_of_isDigit hdigit) rest

section

variable {width value : Nat} {text rest : List Char}

theorem startsWithDigit_of_fullNumber (hw : 0 < width)
    (h : fullNumber width text = .ok (value, rest)) : StartsWithDigit text := by
  obtain ⟨hlength, hdigits, -⟩ := fullNumber_takes h
  cases text with
  | nil =>
    rw [List.take_nil] at hlength
    exact absurd hlength.symm (Nat.ne_of_gt hw)
  | cons c text =>
    refine ⟨c, text, rfl, hdigits c ?_⟩
    rw [List.take_cons hw]
    exact List.mem_cons_self

theorem value_lt_of_fullNumber (h : fullNumber width text = .ok (value, rest)) :
    value < Nat.pow 10 width := by
  obtain ⟨hlength, hdigits, -⟩ := fullNumber_takes h
  simp only [fullNumber] at h
  split at h
  · cases h
    have hlt := digitsValue_lt hdigits
    rwa [hlength] at hlt
  · cases h

/-- A number of full width is read as far by the reader that takes at most that width. -/
theorem number_of_fullNumber (hw : 0 < width) (h : fullNumber width text = .ok (value, rest)) :
    number width text = .ok (value, rest) := by
  obtain ⟨hlength, hdigits, -⟩ := fullNumber_takes h
  obtain ⟨c, tail, rfl, hdigit⟩ := startsWithDigit_of_fullNumber hw h
  have hsplit : (c :: tail).takeWhile Char.isDigit =
      (c :: tail).take width ++ ((c :: tail).drop width).takeWhile Char.isDigit := by
    rw [← List.takeWhile_append_of_pos hdigits, List.take_append_drop]
  have hrun : ((c :: tail).takeWhile Char.isDigit).take width = (c :: tail).take width := by
    rw [hsplit, List.take_left' hlength]
  simp only [fullNumber] at h
  split at h
  · cases h
    simp only [number, hdigit, if_true, hrun, hlength]
  · cases h

theorem boundedNumber_of_fullNumber {least most : Nat}
    (h : fullNumber 2 text = .ok (value, rest)) (hleast : least ≤ value) (hmost : value ≤ most) :
    boundedNumber least most text = .ok (value, rest) := by
  have hnumber := number_of_fullNumber (by decide) h
  have hstart := (startsWithDigit_of_fullNumber (by decide) h).dropBlanks
  simp only [boundedNumber, spacedNumber, hstart, hnumber]
  exact if_pos ⟨hleast, hmost⟩

theorem spacedMark_of_mark {c : Char} (hc : isBlank c = false)
    (h : mark (· == c) text = .ok rest) : spacedMark c text = .ok rest := by
  cases text with
  | nil => cases h
  | cons d text =>
    simp only [mark] at h
    split at h
    · next hd =>
      cases h
      have heq : d = c := beq_iff_eq.mp hd
      subst heq
      rw [spacedMark, dropBlanks_cons_of_not_blank hc]
      exact if_pos hd
    · cases h

theorem lenientYear_of_fullNumber (h : fullNumber 4 text = .ok (value, rest)) :
    lenientYear text = .ok ((value : Int), rest) := by
  have hnumber := number_of_fullNumber (by decide) h
  have hlt : value < 10000 := value_lt_of_fullNumber h
  have hstart := startsWithDigit_of_fullNumber (by decide) h
  have hlimit : Int.pow 2 31 = 2147483648 := rfl
  have hbounded : boundedYear 1 4 text = .ok ((value : Int), rest) := by
    rw [boundedYear, bind_eq_ok_iff]
    refine ⟨(value, rest), hnumber, ?_⟩
    simp only [Int.one_mul, hlimit]
    exact if_pos (by omega)
  rw [lenientYear, hstart.dropBlanks]
  obtain ⟨c, tail, rfl, hdigit⟩ := hstart
  split
  · next heq =>
    cases heq
    cases hdigit
  · next heq =>
    cases heq
    cases hdigit
  · exact hbounded

theorem oneOf_of_mark {kind : Char → Bool} (h : mark kind text = .ok rest) :
    oneOf kind text = .ok rest := by
  cases text with
  | nil => cases h
  | cons c text =>
    simp only [mark] at h
    split at h
    · next hc =>
      cases h
      exact if_pos hc
    · cases h

end

theorem month_day_of_exists {date : Date} (h : date.exists = true) :
    (1 ≤ date.month ∧ date.month ≤ 12) ∧ 1 ≤ date.day ∧ date.day ≤ 31 := by
  simp only [Date.exists, Bool.and_eq_true, decide_eq_true_eq] at h
  obtain ⟨⟨hmonth, hday⟩, hlength⟩ := h
  have hlongest : ∀ leap, ∀ length ∈ monthLengths leap, length ≤ 31 := by decide
  refine ⟨hmonth, hday, Nat.le_trans hlength ?_⟩
  rw [List.getD_eq_getElem?_getD]
  cases hget : (monthLengths (isLeapYear date.year))[date.month - 1]? with
  | none => exact Nat.zero_le _
  | some length => exact hlongest _ length (List.mem_of_getElem? hget)

/-- A strict date of the calendar is a lenient one. -/
theorem lenientDate_of_strictDate {text rest : List Char} {date : Date}
    (h : strictDate text = .ok (date, rest)) (hexists : date.exists = true) :
    lenientDate text = .ok (date, rest) := by
  obtain ⟨⟨hmonth, hmonth'⟩, hday, hday'⟩ := month_day_of_exists hexists
  simp only [strictDate, bind_eq_ok_iff, Prod.exists] at h
  obtain ⟨y, a, hy, b, hb, m, c, hm, d, hd, n, e, hn, h⟩ := h
  cases h
  simp only [lenientDate, bind_eq_ok_iff, Prod.exists]
  exact ⟨y, a, lenientYear_of_fullNumber hy, b, spacedMark_of_mark (by decide) hb,
    m, c, boundedNumber_of_fullNumber hm hmonth hmonth', d, spacedMark_of_mark (by decide) hd,
    n, _, boundedNumber_of_fullNumber hn hday hday', rfl⟩

/-- A strict time of day is a lenient one. -/
theorem lenientClock_of_strictClock {date : Date} {text rest : List Char} {time : LocalTime}
    (h : strictClock date text = .ok (time, rest)) : lenientClock date text = .ok (time, rest) := by
  simp only [strictClock, bind_eq_ok_iff, Prod.exists] at h
  obtain ⟨hour, a, hhour, b, hb, minute, c, hminute, d, hd, second, e, hsecond, nanos, f, hf, h⟩ :=
    h
  split at h
  · next hrange =>
    cases h
    simp only [lenientClock, bind_eq_ok_iff, Prod.exists]
    exact ⟨hour, a, boundedNumber_of_fullNumber hhour (Nat.zero_le _) hrange.1,
      b, spacedMark_of_mark (by decide) hb,
      minute, c, boundedNumber_of_fullNumber hminute (Nat.zero_le _) hrange.2.1,
      d, spacedMark_of_mark (by decide) hd,
      second, e, boundedNumber_of_fullNumber hsecond (Nat.zero_le _) hrange.2.2,
      nanos, _, hf, rfl⟩
  · cases h

theorem startsWithDigit_of_twoDigits {limited : Bool} {value : Nat} {text rest : List Char}
    (h : twoDigits limited text = .ok (value, rest)) : StartsWithDigit text := by
  unfold twoDigits at h
  split at h
  · cases h
  · split at h
    · next a b tail _ =>
      split at h
      · next hd => exact ⟨a, b :: tail, rfl, (Bool.and_eq_true_iff.mp hd).1⟩
      · cases h
    · cases h

/-- One colon between hours and minutes is passed over, and nothing else. -/
theorem looseSeparator_of_oneOf {limited : Bool} {value : Nat} {text rest after : List Char}
    (h : oneOf (· == ':') text = .ok rest)
    (hminutes : twoDigits limited rest = .ok (value, after)) :
    looseSeparator text = .ok rest := by
  obtain ⟨c, tail, rfl, hdigit⟩ := startsWithDigit_of_twoDigits hminutes
  have hcolon : c ≠ ':' := by
    rintro rfl
    cases hdigit
  have hstop : (c == ':' || isBlank c) = false := by
    simp [hcolon, not_isBlank_of_isDigit hdigit]
  cases text with
  | nil => cases h
  | cons d text =>
    simp only [oneOf] at h
    split at h
    · next hd =>
      cases h
      simp only [looseSeparator, List.dropWhile_cons, hd, hstop, Bool.true_or, if_true,
        Bool.false_eq_true, if_false]
    · cases h

theorem not_letter_of_offsetSign {c : Char} {negative : Bool} (h : offsetSign? c = some negative) :
    isBlank c = false ∧ c.toLower ≠ 'u' := by
  unfold offsetSign? at h
  split at h
  · next hc =>
    subst hc
    decide
  · split at h
    · next hc => rcases hc with rfl | rfl <;> decide
    · cases h

theorem lenientOffset_eq {c : Char} (hc : c.toLower ≠ 'u') (rest : List Char) :
    lenientOffset (c :: rest) = offset looseSeparator (c :: rest) := by
  unfold lenientOffset
  split
  · next heq =>
    cases heq
    exact if_neg fun h => hc h.1
  · rfl

/-- A strict offset is a lenient one: it begins neither with a blank nor as `UTC` does. -/
theorem lenientOffset_of_offset {text rest : List Char} {span : Int}
    (h : offset (oneOf (· == ':')) text = .ok (span, rest)) :
    lenientOffset (dropBlanks text) = .ok (span, rest) := by
  cases text with
  | nil => cases h
  | cons c text =>
    simp only [offset] at h
    split at h
    · next hz =>
      cases h
      rcases hz with rfl | rfl
      · rw [dropBlanks_cons_of_not_blank (by decide), lenientOffset_eq (by decide)]
        rfl
      · rw [dropBlanks_cons_of_not_blank (by decide), lenientOffset_eq (by decide)]
        rfl
    · next hz =>
      split at h
      · cases h
      · next negative hsign =>
        obtain ⟨hblank, hletter⟩ := not_letter_of_offsetSign hsign
        simp only [bind_eq_ok_iff, Prod.exists] at h
        obtain ⟨hours, a, hhours, b, hb, minutes, d, hminutes, h⟩ := h
        rw [dropBlanks_cons_of_not_blank hblank, lenientOffset_eq hletter]
        simp only [offset, if_neg hz, hsign, bind_eq_ok_iff, Prod.exists]
        exact ⟨hours, a, hhours, b, looseSeparator_of_oneOf hb hminutes, minutes, d, hminutes, h⟩

/-- A strict timestamp is a lenient one of the same instant. -/
theorem readLenient_of_readStrict {text : List Char} {instant : Instant}
    (h : readStrict text = .ok instant) : readLenient text = .ok instant := by
  unfold readStrict at h
  split at h
  · cases h
  · simp only [bind_eq_ok_iff, Prod.exists] at h
    obtain ⟨date, a, hdate, h⟩ := h
    split at h
    · obtain ⟨_, ⟨⟩, _⟩ := h
    · next hexists =>
      simp only [bind_eq_ok_iff, Prod.exists] at h
      obtain ⟨b, hb, time, c, htime, span, d, hspan, h⟩ := h
      split at h
      · obtain ⟨_, ⟨⟩, _⟩ := h
      · next hd =>
        simp only [readLenient, bind_eq_ok_iff, Prod.exists]
        refine ⟨date, a, lenientDate_of_strictDate hdate (not_not.mp hexists), b,
          oneOf_of_mark hb, time, c, lenientClock_of_strictClock htime, span, d,
          lenientOffset_of_offset hspan, ?_⟩
        rw [not_not.mp hd, dropBlanks_nil]
        exact h

end ContainerCheck.Time
