import ContainerCheck.Proofs.ShownTimestamp
import Mathlib.Data.List.Basic

namespace ContainerCheck.Time

open ContainerCheck.Log ContainerCheck.Text

def IsDigits (width : Nat) (text : List Char) : Prop :=
  text.length = width ∧ ∀ c ∈ text, c.isDigit = true

inductive FractionForm : List Char → Prop
  | whole : FractionForm []
  | split {digits : List Char} (hne : digits ≠ []) (hdigits : ∀ c ∈ digits, c.isDigit = true) :
      FractionForm ('.' :: digits)

/-- An offset: the letter of universal time, or a sign, hours and minutes with a colon between. -/
inductive OffsetForm : List Char → Prop
  | zulu {c : Char} (hc : c = 'Z' ∨ c = 'z') : OffsetForm [c]
  | signed {c : Char} {negative : Bool} {hours minutes : List Char}
      (hsign : offsetSign? c = some negative) (hhours : IsDigits 2 hours)
      (hminutes : IsDigits 2 minutes) : OffsetForm (c :: (hours ++ ':' :: minutes))

inductive DateForm : List Char → Prop
  | mk {year month day : List Char} (hyear : IsDigits 4 year) (hmonth : IsDigits 2 month)
      (hday : IsDigits 2 day) : DateForm (year ++ '-' :: (month ++ '-' :: day))

inductive ClockForm : List Char → Prop
  | mk {hour minute second fraction : List Char} (hhour : IsDigits 2 hour)
      (hminute : IsDigits 2 minute) (hsecond : IsDigits 2 second)
      (hfraction : FractionForm fraction) :
      ClockForm (hour ++ ':' :: (minute ++ ':' :: (second ++ fraction)))

inductive StampForm : List Char → Prop
  | mk {date clock offset : List Char} {dateEnd : Char} (hdate : DateForm date)
      (hend : isDateEnd dateEnd = true) (hclock : ClockForm clock) (hoffset : OffsetForm offset) :
      StampForm (date ++ dateEnd :: (clock ++ offset))

section

variable {width value : Nat} {text rest : List Char}

theorem fullNumber_eq_ok_iff : fullNumber width text = .ok (value, rest) ↔
    ∃ digits, text = digits ++ rest ∧ IsDigits width digits ∧ value = digitsValue digits := by
  constructor
  · intro h
    obtain ⟨hlength, hdigits, -⟩ := fullNumber_takes h
    simp only [fullNumber] at h
    split at h
    · cases h
      exact ⟨_, (List.take_append_drop _ _).symm, ⟨hlength, hdigits⟩, rfl⟩
    · cases h
  · rintro ⟨digits, rfl, ⟨hlength, hdigits⟩, rfl⟩
    have hall : digits.all Char.isDigit = true := List.all_eq_true.mpr hdigits
    simp only [fullNumber, List.take_left' hlength, List.drop_left' hlength, hlength, hall,
      and_self, if_true]

theorem fullNumber_digits {digits : List Char} (h : IsDigits width digits) (rest : List Char) :
    fullNumber width (digits ++ rest) = .ok (digitsValue digits, rest) :=
  fullNumber_eq_ok_iff.mpr ⟨digits, rfl, h, rfl⟩

theorem mark_eq_ok_iff {kind : Char → Bool} :
    mark kind text = .ok rest ↔ ∃ c, text = c :: rest ∧ kind c = true := by
  cases text with
  | nil => simp [mark]
  | cons c text =>
    by_cases hc : kind c = true
    · simp [mark, hc]
    · simp only [mark, if_neg hc, List.cons.injEq]
      refine iff_of_false (by rintro ⟨⟩) ?_
      rintro ⟨d, ⟨rfl, -⟩, hd⟩
      exact hc hd

theorem oneOf_eq_ok_iff {kind : Char → Bool} :
    oneOf kind text = .ok rest ↔ ∃ c, text = c :: rest ∧ kind c = true := by
  cases text with
  | nil => simp [oneOf]
  | cons c text => exact (mark_eq_ok_iff : mark kind (c :: text) = .ok rest ↔ _)

theorem digits_of_number (hw : 0 < width) (h : number width text = .ok (value, rest)) :
    ∃ digits, text = digits ++ rest ∧ digits ≠ [] ∧ ∀ c ∈ digits, c.isDigit = true := by
  cases text with
  | nil => cases h
  | cons c text =>
    simp only [number] at h
    split at h
    · next hc =>
      cases h
      have hprefix : ((c :: text).takeWhile Char.isDigit).take width <+: c :: text :=
        (List.take_prefix _ _).trans (List.takeWhile_prefix _)
      refine ⟨_, (List.prefix_iff_eq_append.mp hprefix).symm, ?_, fun d hd =>
        List.mem_takeWhile_imp (List.mem_of_mem_take hd)⟩
      rw [List.takeWhile_cons_of_pos hc, List.take_cons hw]
      exact List.cons_ne_nil _ _
    · cases h

theorem fractionForm_of_fraction {nanos : Nat} (h : fraction text = .ok (nanos, rest)) :
    ∃ used, text = used ++ rest ∧ FractionForm used := by
  unfold fraction at h
  split at h
  · split at h
    · cases h
    · next after hnumber =>
      cases h
      obtain ⟨digits, rfl, hne, hdigits⟩ := digits_of_number (by decide) hnumber
      -- The digits past the ninth belong to the fraction, too.
      refine ⟨'.' :: (digits ++ after.takeWhile Char.isDigit), ?_, .split (by simp [hne]) ?_⟩
      · rw [List.cons_append, List.append_assoc, List.takeWhile_append_dropWhile]
      · intro c hc
        rcases List.mem_append.mp hc with hc | hc
        · exact hdigits c hc
        · exact List.mem_takeWhile_imp hc
  · cases h
    exact ⟨[], rfl, .whole⟩

theorem digits_of_twoDigits {limited : Bool} (h : twoDigits limited text = .ok (value, rest)) :
    ∃ digits, text = digits ++ rest ∧ IsDigits 2 digits := by
  unfold twoDigits at h
  split at h
  · cases h
  · split at h
    · next a b tail _ =>
      split at h
      · next hd =>
        have hdigits : ∀ c ∈ [a, b], c.isDigit = true := by simpa using hd
        split at h
        · cases h
        · cases h
          exact ⟨[a, b], rfl, rfl, hdigits⟩
      · cases h
    · cases h

theorem offsetForm_of_offset {span : Int}
    (h : offset (oneOf (· == ':')) text = .ok (span, rest)) :
    ∃ used, text = used ++ rest ∧ OffsetForm used := by
  cases text with
  | nil => cases h
  | cons c text =>
    simp only [offset] at h
    split at h
    · next hc =>
      cases h
      exact ⟨[c], rfl, .zulu hc⟩
    · split at h
      · cases h
      · next negative hsign =>
        simp only [bind_eq_ok_iff, Prod.exists] at h
        obtain ⟨_, a, hhours, b, hb, _, d, hminutes, h⟩ := h
        cases h
        obtain ⟨hours, rfl, hours_digits⟩ := digits_of_twoDigits hhours
        obtain ⟨minutes, rfl, minutes_digits⟩ := digits_of_twoDigits hminutes
        obtain ⟨colon, rfl, hcolon⟩ := oneOf_eq_ok_iff.mp hb
        rw [beq_iff_eq.mp hcolon]
        exact ⟨c :: (hours ++ ':' :: minutes), by simp, .signed hsign hours_digits minutes_digits⟩

theorem dateForm_of_strictDate {date : Date} (h : strictDate text = .ok (date, rest)) :
    ∃ used, text = used ++ rest ∧ DateForm used := by
  simp only [strictDate, bind_eq_ok_iff, Prod.exists, fullNumber_eq_ok_iff, mark_eq_ok_iff] at h
  obtain ⟨_, _, ⟨year, rfl, hyear, -⟩, _, ⟨_, rfl, hdash⟩, _, _, ⟨month, rfl, hmonth, -⟩,
    _, ⟨_, rfl, hdash'⟩, _, _, ⟨day, rfl, hday, -⟩, h⟩ := h
  cases h
  rw [beq_iff_eq.mp hdash, beq_iff_eq.mp hdash']
  exact ⟨_, by simp, .mk hyear hmonth hday⟩

theorem clockForm_of_strictClock {date : Date} {time : LocalTime}
    (h : strictClock date text = .ok (time, rest)) :
    ∃ used, text = used ++ rest ∧ ClockForm used := by
  simp only [strictClock, bind_eq_ok_iff, Prod.exists, fullNumber_eq_ok_iff, mark_eq_ok_iff] at h
  obtain ⟨_, _, ⟨hour, rfl, hhour, -⟩, _, ⟨_, rfl, hcolon⟩, _, _, ⟨minute, rfl, hminute, -⟩,
    _, ⟨_, rfl, hcolon'⟩, _, _, ⟨second, rfl, hsecond, -⟩, _, _, hread, h⟩ := h
  obtain ⟨fraction, rfl, hfraction⟩ := fractionForm_of_fraction hread
  split at h
  · cases h
    rw [beq_iff_eq.mp hcolon, beq_iff_eq.mp hcolon']
    exact ⟨_, by simp, .mk hhour hminute hsecond hfraction⟩
  · cases h

end

/-- Every strict timestamp has the form. -/
theorem stampForm_of_readStrict {text : List Char} {instant : Instant}
    (h : readStrict text = .ok instant) : StampForm text := by
  unfold readStrict at h
  split at h
  · cases h
  · simp only [bind_eq_ok_iff, Prod.exists] at h
    obtain ⟨date, a, hdate, h⟩ := h
    split at h
    · obtain ⟨_, ⟨⟩, _⟩ := h
    · simp only [bind_eq_ok_iff, Prod.exists] at h
      obtain ⟨b, hb, time, c, htime, span, d, hspan, h⟩ := h
      split at h
      · obtain ⟨_, ⟨⟩, _⟩ := h
      · next hd =>
        obtain ⟨dateEnd, rfl, hend⟩ := mark_eq_ok_iff.mp hb
        obtain ⟨date, rfl, date_form⟩ := dateForm_of_strictDate hdate
        obtain ⟨clock, rfl, clock_form⟩ := clockForm_of_strictClock htime
        obtain ⟨offset, rfl, offset_form⟩ := offsetForm_of_offset hspan
        rw [not_not.mp hd, List.append_nil]
        exact .mk date_form hend clock_form offset_form

section

variable {text rest : List Char}

theorem not_zulu_of_offsetSign {c : Char} {negative : Bool} (h : offsetSign? c = some negative) :
    c.isDigit = false ∧ c ≠ '.' ∧ ¬ (c = 'Z' ∨ c = 'z') := by
  unfold offsetSign? at h
  split at h
  · next hc =>
    subst hc
    decide
  · split at h
    · next hc => rcases hc with rfl | rfl <;> decide
    · cases h

/-- An offset begins neither with a digit nor with a point. -/
theorem OffsetForm.head (h : OffsetForm text) :
    ∃ c rest, text = c :: rest ∧ c.isDigit = false ∧ c ≠ '.' := by
  cases h with
  | zulu hc =>
    refine ⟨_, [], rfl, ?_⟩
    rcases hc with rfl | rfl <;> decide
  | signed hsign =>
    have hhead := not_zulu_of_offsetSign hsign
    exact ⟨_, _, rfl, hhead.1, hhead.2.1⟩

/-- All digits of a fraction are read, however many. -/
theorem fraction_form (h : FractionForm text) (hrest : OffsetForm rest) :
    ∃ nanos, fraction (text ++ rest) = .ok (nanos, rest) := by
  obtain ⟨c, tail, rfl, hdigit, hpoint⟩ := hrest.head
  cases h with
  | whole =>
    refine ⟨0, ?_⟩
    unfold fraction
    split
    · next heq =>
      cases heq
      exact absurd rfl hpoint
    · rfl
  | @split digits hne hdigits =>
    have hrun : (digits ++ c :: tail).takeWhile Char.isDigit = digits := by
      rw [List.takeWhile_append_of_pos hdigits, List.takeWhile_cons_of_neg (by simp [hdigit]),
        List.append_nil]
    have hnumber : number 9 (digits ++ c :: tail) =
        .ok (digitsValue (digits.take 9), digits.drop (digits.take 9).length ++ c :: tail) := by
      rw [← List.drop_append_of_le_length (List.length_take_le' 9 digits)]
      cases digits with
      | nil => exact absurd rfl hne
      | cons d digits =>
        rw [List.cons_append] at hrun ⊢
        simp only [number, hdigits d List.mem_cons_self, if_true, hrun]
    have hleft : (digits.drop (digits.take 9).length ++ c :: tail).dropWhile Char.isDigit =
        c :: tail := by
      rw [List.dropWhile_append_of_pos fun d hd => hdigits d (List.mem_of_mem_drop hd),
        List.dropWhile_cons_of_neg (by simp [hdigit])]
    -- Nine digits count; those behind them are skipped.
    simp only [List.cons_append, fraction, hnumber, hleft]
    exact ⟨_, rfl⟩

theorem twoDigits_digits {digits : List Char} (h : IsDigits 2 digits) (rest : List Char) :
    twoDigits false (digits ++ rest) = .ok (digitsValue digits, rest) := by
  obtain ⟨hlength, hdigits⟩ := h
  obtain ⟨a, b, rfl⟩ := List.length_eq_two.mp hlength
  have hbytes : ¬ byteLength (a :: b :: rest) < 2 := by
    have ha := a.utf8Size_pos
    have hb := b.utf8Size_pos
    rw [byteLength_cons, byteLength_cons]
    omega
  have hall : (a.isDigit && b.isDigit) = true := by simpa using hdigits
  simp only [twoDigits, List.cons_append, List.nil_append, if_neg hbytes, hall, if_true,
    Bool.false_and, Bool.false_eq_true, if_false]

/-- Both readers take such an offset alike. -/
theorem lenientOffset_form (h : OffsetForm text) :
    lenientOffset (dropBlanks text) = offset (oneOf (· == ':')) text := by
  cases h with
  | zulu hc => rcases hc with rfl | rfl <;> rfl
  | @signed c negative hours minutes hsign hhours hminutes =>
    obtain ⟨hblank, hletter⟩ := not_letter_of_offsetSign hsign
    obtain ⟨-, -, hz⟩ := not_zulu_of_offsetSign hsign
    have hminute : looseSeparator (':' :: minutes) = oneOf (· == ':') (':' :: minutes) := by
      obtain ⟨d, tail, rfl⟩ := List.exists_cons_of_length_pos (hminutes.1 ▸ Nat.two_pos)
      have hdigit := hminutes.2 d List.mem_cons_self
      have hcolon : d ≠ ':' := by
        rintro rfl
        cases hdigit
      simp [looseSeparator, oneOf, hcolon, not_isBlank_of_isDigit hdigit]
    rw [dropBlanks_cons_of_not_blank hblank, lenientOffset_eq hletter]
    simp only [offset, if_neg hz, hsign, twoDigits_digits hhours, bind, Except.bind, hminute]

/-- Nothing is left behind such an offset. -/
theorem rest_of_offset (h : OffsetForm text) {span : Int}
    (hread : offset (oneOf (· == ':')) text = .ok (span, rest)) : rest = [] := by
  cases h with
  | zulu hc => rcases hc with rfl | rfl <;> cases hread <;> rfl
  | @signed c negative hours minutes hsign hhours hminutes =>
    obtain ⟨-, -, hz⟩ := not_zulu_of_offsetSign hsign
    simp only [offset, if_neg hz, hsign, twoDigits_digits hhours, bind_eq_ok_iff,
      Prod.exists] at hread
    obtain ⟨_, _, ⟨⟩, _, ⟨⟩, _, a, hread, h⟩ := hread
    cases h
    obtain ⟨digits, rfl, hdigits⟩ := digits_of_twoDigits hread
    have hlength := hminutes.1
    rw [List.length_append, hdigits.1] at hlength
    exact List.eq_nil_of_length_eq_zero (by omega)

theorem eq_of_boundedNumber {least most value value' : Nat} {rest' : List Char}
    (h : fullNumber 2 text = .ok (value, rest))
    (hbounded : boundedNumber least most text = .ok (value', rest')) :
    value' = value ∧ rest' = rest ∧ least ≤ value ∧ value ≤ most := by
  have hnumber := number_of_fullNumber (by decide) h
  have hstart := (startsWithDigit_of_fullNumber (by decide) h).dropBlanks
  simp only [boundedNumber, spacedNumber, hstart, hnumber, bind, Except.bind] at hbounded
  split at hbounded
  · next hbounds =>
    cases hbounded
    exact ⟨rfl, rfl, hbounds⟩
  · cases hbounded

/-- A date of the form that the lenient reader takes, the strict one takes as well. -/
theorem strictDate_form (h : DateForm text) (rest : List Char) {date : Date} {after : List Char}
    (hread : lenientDate (text ++ rest) = .ok (date, after)) :
    after = rest ∧ strictDate (text ++ rest) = .ok (date, rest) := by
  cases h with
  | @mk year month day hyear hmonth hday =>
    simp only [List.append_assoc, List.cons_append] at hread ⊢
    have hyear := fullNumber_digits hyear ('-' :: (month ++ '-' :: (day ++ rest)))
    have hmonth := fullNumber_digits hmonth ('-' :: (day ++ rest))
    have hday := fullNumber_digits hday rest
    simp only [lenientDate, bind_eq_ok_iff, Prod.exists, lenientYear_of_fullNumber hyear] at hread
    obtain ⟨_, _, ⟨⟩, _, hdash, _, _, hmonth', _, hdash', _, _, hday', h⟩ := hread
    -- Each part that the lenient reader finds is the one that the form has there.
    rw [spacedMark_self (by decide)] at hdash
    cases hdash
    obtain ⟨rfl, rfl, -⟩ := eq_of_boundedNumber hmonth hmonth'
    rw [spacedMark_self (by decide)] at hdash'
    cases hdash'
    obtain ⟨rfl, rfl, -⟩ := eq_of_boundedNumber hday hday'
    cases h
    refine ⟨rfl, ?_⟩
    simp only [strictDate, bind_eq_ok_iff, Prod.exists]
    exact ⟨_, _, hyear, _, rfl, _, _, hmonth, _, rfl, _, _, hday, rfl⟩

/-- The same for a time of day. -/
theorem strictClock_form (h : ClockForm text) (hrest : OffsetForm rest) {date : Date}
    {time : LocalTime} {after : List Char}
    (hread : lenientClock date (text ++ rest) = .ok (time, after)) :
    after = rest ∧ strictClock date (text ++ rest) = .ok (time, rest) := by
  cases h with
  | @mk hour minute second fraction hhour hminute hsecond hfraction =>
    simp only [List.append_assoc, List.cons_append] at hread ⊢
    have hhour := fullNumber_digits hhour (':' :: (minute ++ ':' :: (second ++ (fraction ++ rest))))
    have hminute := fullNumber_digits hminute (':' :: (second ++ (fraction ++ rest)))
    have hsecond := fullNumber_digits hsecond (fraction ++ rest)
    obtain ⟨nanos, hnanos⟩ := fraction_form hfraction hrest
    simp only [lenientClock, bind_eq_ok_iff, Prod.exists] at hread
    obtain ⟨_, _, hhour', _, hcolon, _, _, hminute', _, hcolon', _, _, hsecond', _, _, hnanos',
      h⟩ := hread
    obtain ⟨rfl, rfl, -, hhour_le⟩ := eq_of_boundedNumber hhour hhour'
    rw [spacedMark_self (by decide)] at hcolon
    cases hcolon
    obtain ⟨rfl, rfl, -, hminute_le⟩ := eq_of_boundedNumber hminute hminute'
    rw [spacedMark_self (by decide)] at hcolon'
    cases hcolon'
    obtain ⟨rfl, rfl, -, hsecond_le⟩ := eq_of_boundedNumber hsecond hsecond'
    rw [hnanos] at hnanos'
    cases hnanos'
    cases h
    refine ⟨rfl, ?_⟩
    simp only [strictClock, bind_eq_ok_iff, Prod.exists]
    exact ⟨_, _, hhour, _, rfl, _, _, hminute, _, rfl, _, _, hsecond, _, _, hnanos,
      if_pos ⟨hhour_le, hminute_le, hsecond_le⟩⟩

end

theorem length_le_byteLength (text : List Char) : text.length ≤ byteLength text := by
  induction text with
  | nil => exact Nat.le_refl 0
  | cons c text ih =>
    have hc := c.utf8Size_pos
    rw [List.length_cons, byteLength_cons]
    omega

theorem StampForm.length {text : List Char} (h : StampForm text) : 19 ≤ text.length := by
  obtain ⟨⟨hyear, hmonth, hday⟩, -, ⟨hhour, hminute, hsecond, -⟩, -⟩ := h
  simp only [List.length_append, List.length_cons, hyear.1, hmonth.1, hday.1, hhour.1, hminute.1,
    hsecond.1]
  omega

theorem exists_of_resolve {time : LocalTime} {span : Int} {instant : Instant}
    (h : resolve time span = .ok instant) : time.date.exists = true := by
  unfold resolve at h
  split at h
  · cases h
  · next hexists => exact (Bool.and_eq_true_iff.mp (not_not.mp hexists)).1

theorem date_of_lenientClock {date : Date} {time : LocalTime} {text rest : List Char}
    (h : lenientClock date text = .ok (time, rest)) : time.date = date := by
  simp only [lenientClock, bind_eq_ok_iff, Prod.exists] at h
  obtain ⟨_, _, -, _, -, _, _, -, _, -, _, _, -, _, _, -, h⟩ := h
  cases h
  rfl

/-- Strict timestamps are the lenient ones of one form. -/
theorem readStrict_eq_ok_iff {text : List Char} {instant : Instant} :
    readStrict text = .ok instant ↔ readLenient text = .ok instant ∧ StampForm text := by
  refine ⟨fun h => ⟨readLenient_of_readStrict h, stampForm_of_readStrict h⟩, ?_⟩
  rintro ⟨hread, hform⟩
  have hlong : ¬ byteLength text < 19 :=
    Nat.not_lt.mpr (hform.length.trans (length_le_byteLength text))
  obtain ⟨hdate, hend, hclock, hoffset⟩ := hform
  simp only [readLenient, bind_eq_ok_iff, Prod.exists] at hread
  obtain ⟨date, _, hdate', _, hend', time, _, hclock', span, _, hoffset', hread⟩ := hread
  -- Part by part, the lenient reader stops where the strict one does.
  obtain ⟨rfl, hdate⟩ := strictDate_form hdate _ hdate'
  obtain ⟨_, heq, -⟩ := oneOf_eq_ok_iff.mp hend'
  cases heq
  obtain ⟨rfl, hclock⟩ := strictClock_form hclock hoffset hclock'
  rw [lenientOffset_form hoffset] at hoffset'
  obtain rfl := rest_of_offset hoffset hoffset'
  rw [dropBlanks_nil] at hread
  have hexists := exists_of_resolve hread
  rw [date_of_lenientClock hclock'] at hexists
  rw [readStrict, if_neg hlong]
  simp only [bind_eq_ok_iff, Prod.exists]
  refine ⟨date, _, hdate, ?_⟩
  rw [if_neg (not_not.mpr hexists)]
  simp only [bind_eq_ok_iff, Prod.exists]
  exact ⟨_, mark_eq_ok_iff.mpr ⟨_, rfl, hend⟩, time, _, hclock, span, _, hoffset', hread⟩

/-- The instants that are shown with a year of four digits. -/
structure Instant.Plain (i : Instant) : Prop extends i.Shown where
  year : 0 ≤ i.toLocal.date.year ∧ i.toLocal.date.year ≤ 9999

theorem isDigits_fixed (width n : Nat) : IsDigits width (fixed width n) :=
  ⟨length_fixed width n, fun _ hc => isDigit_of_mem_fixed hc⟩

theorem fractionForm_fractionText (precision : Precision) (nanos : Nat) :
    FractionForm (fractionText precision nanos) := by
  have hfixed {width : Nat} (n : Nat) (hwidth : 0 < width) : FractionForm ('.' :: fixed width n) :=
    .split (List.ne_nil_of_length_pos (by rwa [length_fixed])) (isDigits_fixed width n).2
  unfold fractionText
  split
  · exact hfixed _ (by decide)
  · split_ifs
    · exact .whole
    · exact hfixed _ (by decide)
    · exact hfixed _ (by decide)
    · exact hfixed _ (by decide)

theorem stampForm_text {i : Instant} (h : i.Plain) (precision : Precision) :
    StampForm (i.text precision) := by
  have hdate : DateForm (yearText i.toLocal.date.year ++
      '-' :: (fixed 2 i.toLocal.date.month ++ '-' :: fixed 2 i.toLocal.date.day)) := by
    rw [yearText, if_pos h.year]
    exact .mk (isDigits_fixed _ _) (isDigits_fixed _ _) (isDigits_fixed _ _)
  have hclock := ClockForm.mk (isDigits_fixed 2 i.toLocal.hour) (isDigits_fixed 2 i.toLocal.minute)
    (isDigits_fixed 2 i.toLocal.second) (fractionForm_fractionText precision i.toLocal.nanos)
  have hform : StampForm (_ ++ 'T' :: (_ ++ ['Z'])) := .mk hdate rfl hclock (.zulu (.inl rfl))
  simpa [Instant.text] using hform

/-- A strict timestamp shows each of them. -/
theorem readStrict_text {i : Instant} (h : i.Plain) (precision : Precision) :
    readStrict (i.text precision) = .ok i :=
  readStrict_eq_ok_iff.mpr ⟨readLenient_text h.toShown precision, stampForm_text h precision⟩

end ContainerCheck.Time
