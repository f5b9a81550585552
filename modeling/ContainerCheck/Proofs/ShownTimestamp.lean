import ContainerCheck.Proofs.LenientTimestamp

namespace ContainerCheck.Time

open ContainerCheck.Text

theorem exists_monthOfDay {lengths : List Nat} {day : Nat} (h : day < total lengths) :
    ∃ index rest, ∃ hi : index < lengths.length, rest < lengths[index] ∧
      day = total (lengths.take index) + rest := by
  induction lengths generalizing day with
  | nil => exact absurd h (Nat.not_lt_zero _)
  | cons length tail ih =>
    by_cases hday : day < length
    · exact ⟨0, day, by simp, hday, by simp⟩
    · rw [total_cons] at h
      obtain ⟨index, rest, hi, hrest, heq⟩ := @ih (day - length) (by omega)
      refine ⟨index + 1, rest, by simpa using hi, by simpa using hrest, ?_⟩
      rw [List.take_succ_cons, total_cons]
      omega

/-- Every day number is that of a date of the calendar. -/
theorem exists_ofDays (days : Int) :
    (Date.ofDays days).exists = true ∧ (Date.ofDays days).toDays = days := by
  obtain ⟨hlower, hupper⟩ := yearOfDay_bounds (days + epochDay)
  have hnext := yearStart_succ (yearOfDay (days + epochDay))
  simp only [Date.ofDays]
  generalize yearOfDay (days + epochDay) = year at *
  have hday : (days + epochDay - yearStart year).toNat <
      total (monthLengths (isLeapYear year)) := by
    rw [total_monthLengths]
    split at hnext <;> simp_all <;> omega
  obtain ⟨index, rest, hi, hrest, heq⟩ := exists_monthOfDay hday
  rw [heq, monthOfDay_take_total hi hrest]
  rw [length_monthLengths] at hi
  constructor
  · simp only [Date.exists, Bool.and_eq_true, decide_eq_true_eq, Nat.add_sub_cancel_left]
    rw [List.getD_eq_getElem?_getD, List.getElem?_eq_getElem (by rwa [length_monthLengths]),
      Option.getD_some]
    omega
  · simp only [Date.toDays, Nat.add_sub_cancel_left]
    omega

/-- The instants that timestamps give. -/
structure Instant.Shown (i : Instant) : Prop where
  inRange : i.inRange = true
  nanos : i.nanos < 2 * nanosPerSecond
  /-- A leap second is the last of its minute. -/
  leap : nanosPerSecond ≤ i.nanos → i.seconds % 60 = 59

section

variable {i : Instant}

/-- The clock of universal time shows each such instant. -/
theorem toInstant_toLocal (h : i.Shown) : i.toLocal.toInstant 0 = i := by
  obtain ⟨seconds, nanos⟩ := i
  have hleap := h.leap
  have hdays := (exists_ofDays (Instant.days ⟨seconds, nanos⟩)).2
  simp only [Instant.toLocal, LocalTime.toInstant, hdays, Instant.mk.injEq, Instant.days,
    secondsPerDay] at *
  by_cases hn : nanosPerSecond ≤ nanos
  · have := hleap hn
    simp only [hn, if_true]
    split <;> omega
  · simp only [hn, if_false]
    split <;> omega

theorem bounds_toLocal (h : i.Shown) :
    i.toLocal.hour ≤ 23 ∧ i.toLocal.minute ≤ 59 ∧ i.toLocal.second ≤ 60 ∧
      i.toLocal.nanos < nanosPerSecond := by
  have hnanos := h.nanos
  simp only [Instant.toLocal, secondsPerDay]
  split <;> omega

theorem resolve_toLocal (h : i.Shown) : resolve i.toLocal 0 = .ok i := by
  have hexists : i.toLocal.date.exists = true := (exists_ofDays i.days).1
  have hyear : yearInRange i.toLocal.date.year = true := h.inRange
  have hzero : -secondsPerDay < 0 ∧ (0 : Int) < secondsPerDay := by decide
  simp [resolve, hexists, hyear, hzero, toInstant_toLocal h, h.inRange]

end

theorem offset_whole {separator : List Char → Except StampFault (List Char)} {text rest : List Char}
    {span : Int} (h : offset separator text = .ok (span, rest)) : span % 60 = 0 := by
  cases text with
  | nil => cases h
  | cons c text =>
    simp only [offset] at h
    split at h
    · cases h
      rfl
    · split at h
      · cases h
      · next negative _ =>
        simp only [bind_eq_ok_iff, Prod.exists] at h
        obtain ⟨hours, a, -, b, -, minutes, d, -, h⟩ := h
        cases h
        split <;> omega

theorem lenientOffset_whole {text rest : List Char} {span : Int}
    (h : lenientOffset text = .ok (span, rest)) : span % 60 = 0 := by
  unfold lenientOffset at h
  split at h
  · split at h
    · cases h
      rfl
    · exact offset_whole h
  · exact offset_whole h

theorem number_lt {width value : Nat} {text rest : List Char}
    (h : number width text = .ok (value, rest)) :
    ∃ used ≤ width, rest = text.drop used ∧ used ≤ text.length ∧ value < Nat.pow 10 used := by
  cases text with
  | nil => cases h
  | cons c text =>
    simp only [number] at h
    split at h
    · cases h
      have hdigits : ∀ d ∈ ((c :: text).takeWhile Char.isDigit).take width, d.isDigit = true :=
        fun d hd => List.mem_takeWhile_imp (List.mem_of_mem_take hd)
      have hprefix : ((c :: text).takeWhile Char.isDigit).take width <+: c :: text :=
        (List.take_prefix _ _).trans (List.takeWhile_prefix _)
      exact ⟨_, List.length_take_le _ _, rfl, hprefix.length_le, digitsValue_lt hdigits⟩
    · cases h

theorem fraction_lt {nanos : Nat} {text rest : List Char} (h : fraction text = .ok (nanos, rest)) :
    nanos < nanosPerSecond := by
  unfold fraction at h
  split at h
  · next tail =>
    split at h
    · cases h
    · next value after hn =>
      cases h
      obtain ⟨used, hused, rfl, hlength, hvalue⟩ := number_lt hn
      have hspan : tail.length - (tail.drop used).length = used := by
        rw [List.length_drop]
        omega
      have hpower : Nat.pow 10 used * Nat.pow 10 (9 - used) = nanosPerSecond := by
        have hsum : used + (9 - used) = 9 := by omega
        calc
          Nat.pow 10 used * Nat.pow 10 (9 - used) = 10 ^ (used + (9 - used)) :=
            (Nat.pow_add 10 used (9 - used)).symm
          _ = nanosPerSecond := by rw [hsum]; rfl
      rw [hspan, ← hpower]
      exact Nat.mul_lt_mul_of_pos_right hvalue (Nat.pow_pos (by decide))
  · cases h
    decide

/-- A time of day at an offset of whole minutes gives such an instant. -/
theorem shown_of_resolve {t : LocalTime} {span : Int} {i : Instant} (h : resolve t span = .ok i)
    (hnanos : t.nanos < nanosPerSecond) (hspan : span % 60 = 0) : i.Shown := by
  unfold resolve at h
  split at h
  · cases h
  · split at h
    · cases h
    · split at h
      · next hrange =>
        cases h
        refine ⟨hrange, ?_, ?_⟩
        · simp only [LocalTime.toInstant]
          split <;> omega
        · simp only [LocalTime.toInstant, secondsPerDay]
          split <;> omega
      · cases h

theorem nanos_of_lenientClock {date : Date} {text rest : List Char} {time : LocalTime}
    (h : lenientClock date text = .ok (time, rest)) : time.nanos < nanosPerSecond := by
  simp only [lenientClock, bind_eq_ok_iff, Prod.exists] at h
  obtain ⟨hour, a, -, b, -, minute, c, -, d, -, second, e, -, nanos, f, hf, h⟩ := h
  cases h
  exact fraction_lt hf

theorem shown_of_readLenient {text : List Char} {i : Instant} (h : readLenient text = .ok i) :
    i.Shown := by
  simp only [readLenient, bind_eq_ok_iff, Prod.exists] at h
  obtain ⟨date, a, -, b, -, time, c, htime, span, d, hspan, h⟩ := h
  split at h
  · obtain ⟨_, ⟨⟩, _⟩ := h
  · exact shown_of_resolve h (nanos_of_lenientClock htime) (lenientOffset_whole hspan)

theorem shown_of_readStrict {text : List Char} {i : Instant} (h : readStrict text = .ok i) :
    i.Shown := shown_of_readLenient (readLenient_of_readStrict h)

theorem fullNumber_fixed {width n : Nat} (h : n < Nat.pow 10 width) (rest : List Char) :
    fullNumber width (fixed width n ++ rest) = .ok (n, rest) := by
  have hdigits : (fixed width n).all Char.isDigit = true :=
    List.all_eq_true.mpr fun c hc => isDigit_of_mem_fixed hc
  simp only [fullNumber, List.take_left' (length_fixed width n),
    List.drop_left' (length_fixed width n), length_fixed, hdigits, and_self, if_true,
    digitsValue_fixed, Nat.mod_eq_of_lt h]

/-- Digits are read up to a character that is none. -/
theorem number_digits (width : Nat) {digits : List Char} (hne : digits ≠ [])
    (hdigits : ∀ c ∈ digits, c.isDigit = true) (hwidth : digits.length ≤ width) {c : Char}
    (hc : c.isDigit = false) (rest : List Char) :
    number width (digits ++ c :: rest) = .ok (digitsValue digits, c :: rest) := by
  have hrun : (digits ++ c :: rest).takeWhile Char.isDigit = digits := by
    rw [List.takeWhile_append_of_pos hdigits, List.takeWhile_cons, hc]
    simp
  cases digits with
  | nil => exact absurd rfl hne
  | cons d digits =>
    have hd := hdigits d List.mem_cons_self
    rw [List.cons_append] at hrun
    simp only [List.cons_append, number, hd, if_true, hrun, List.take_of_length_le hwidth,
      List.length_cons, List.drop_succ_cons, List.drop_left]

theorem boundedYear_digits {sign : Int} (hsign : sign = 1 ∨ sign = -1) (width : Nat)
    {digits : List Char} (hne : digits ≠ []) (hdigits : ∀ c ∈ digits, c.isDigit = true)
    (hwidth : digits.length ≤ width) (hvalue : digitsValue digits < 1000000)
    (rest : List Char) : boundedYear sign width (digits ++ '-' :: rest) =
    .ok (sign * digitsValue digits, '-' :: rest) := by
  have hlimit : Int.pow 2 31 = 2147483648 := rfl
  rw [boundedYear, bind_eq_ok_iff]
  refine ⟨_, number_digits width hne hdigits hwidth (by decide) rest, ?_⟩
  rw [hlimit]
  exact if_pos (by rcases hsign with rfl | rfl <;> omega)

/-- The digits of a year with a sign. -/
theorem signedYear_digits (n : Nat) :
    ∃ digits, (if n ≤ 9999 then fixed 4 n else decimal n) = digits ∧ digits ≠ [] ∧
      (∀ c ∈ digits, c.isDigit = true) ∧ digitsValue digits = n := by
  refine ⟨_, rfl, ?_⟩
  split
  · next h =>
    refine ⟨fun hnil => ?_, fun c hc => isDigit_of_mem_fixed hc, ?_⟩
    · have := congrArg List.length hnil
      simp at this
    · have hpow : Nat.pow 10 4 = 10000 := rfl
      rw [digitsValue_fixed, hpow]
      omega
  · exact ⟨Nat.toDigits_ne_nil, fun c hc => isDigit_of_mem_decimal hc, digitsValue_decimal n⟩

theorem lenientYear_yearText {year : Int} (h : yearInRange year = true) (rest : List Char) :
    lenientYear (yearText year ++ '-' :: rest) = .ok (year, '-' :: rest) := by
  simp only [yearInRange, Bool.and_eq_true, decide_eq_true_eq] at h
  unfold firstYear lastYear at h
  unfold yearText
  split
  · next hplain =>
    have hlt : year.toNat < Nat.pow 10 4 := by
      have hpow : Nat.pow 10 4 = 10000 := rfl
      omega
    rw [lenientYear_of_fullNumber (fullNumber_fixed hlt _), Int.toNat_of_nonneg hplain.1]
  · obtain ⟨digits, heq, hne, hdigits, hvalue⟩ := signedYear_digits year.natAbs
    rw [heq]
    split
    · have hread := boundedYear_digits (.inr rfl) (digits ++ '-' :: rest).length hne hdigits
        (by simp) (by omega) rest
      rw [List.cons_append, lenientYear, dropBlanks_cons_of_not_blank (by decide)]
      simp only [hread, hvalue]
      congr 2
      omega
    · have hread := boundedYear_digits (.inl rfl) (digits ++ '-' :: rest).length hne hdigits
        (by simp) (by omega) rest
      rw [List.cons_append, lenientYear, dropBlanks_cons_of_not_blank (by decide)]
      simp only [hread, hvalue]
      congr 2
      omega

/-- So many digits behind a point are the number in units of the last of them. -/
theorem fraction_fixed {width n : Nat} (hpos : 0 < width) (hwidth : width ≤ 9)
    (h : n < Nat.pow 10 width) {c : Char} (hc : c.isDigit = false) (rest : List Char) :
    fraction ('.' :: fixed width n ++ c :: rest) =
      .ok (n * Nat.pow 10 (9 - width), c :: rest) := by
  have hne : fixed width n ≠ [] := fun hnil => by
    have := congrArg List.length hnil
    simp at this
    omega
  have hread := number_digits 9 hne (fun d hd => isDigit_of_mem_fixed hd)
    (by rwa [length_fixed]) hc rest
  have hused : (fixed width n ++ c :: rest).length - (c :: rest).length = width := by simp
  rw [digitsValue_fixed, Nat.mod_eq_of_lt h] at hread
  simp only [List.cons_append, fraction, hread, hused, List.dropWhile_cons, hc,
    Bool.false_eq_true, if_false]

theorem fraction_nine {nanos : Nat} (h : nanos < nanosPerSecond) (rest : List Char) :
    fraction ('.' :: fixed 9 nanos ++ 'Z' :: rest) = .ok (nanos, 'Z' :: rest) := by
  unfold nanosPerSecond at h
  have hpow : Nat.pow 10 9 = 1000000000 := rfl
  have hpow' : Nat.pow 10 (9 - 9) = 1 := rfl
  rw [fraction_fixed (by decide) (by decide) (by omega) (by decide), hpow', Nat.mul_one]

/-- A fraction loses nothing, the shortest one either. -/
theorem fraction_fractionText {nanos : Nat} (h : nanos < nanosPerSecond) (precision : Precision)
    (rest : List Char) :
    fraction (fractionText precision nanos ++ 'Z' :: rest) = .ok (nanos, 'Z' :: rest) := by
  cases precision with
  | nine => exact fraction_nine h rest
  | shortest =>
    unfold fractionText
    simp only
    split
    · next hzero =>
      subst hzero
      rfl
    · split
      · have hpow : Nat.pow 10 3 = 1000 := rfl
        have hpow' : Nat.pow 10 (9 - 3) = 1000000 := rfl
        unfold nanosPerSecond at h
        rw [fraction_fixed (by decide) (by decide) (by omega) (by decide), hpow']
        congr 2
        omega
      · split
        · have hpow : Nat.pow 10 6 = 1000000 := rfl
          have hpow' : Nat.pow 10 (9 - 6) = 1000 := rfl
          unfold nanosPerSecond at h
          rw [fraction_fixed (by decide) (by decide) (by omega) (by decide), hpow']
          congr 2
          omega
        · exact fraction_nine h rest

theorem spacedMark_self {c : Char} (hc : isBlank c = false) (rest : List Char) :
    spacedMark c (c :: rest) = .ok rest :=
  spacedMark_of_mark hc (if_pos (beq_self_eq_true c))

theorem boundedNumber_fixed {least most n : Nat} (hleast : least ≤ n) (hmost : n ≤ most)
    (h : most < 100) (rest : List Char) :
    boundedNumber least most (fixed 2 n ++ rest) = .ok (n, rest) := by
  have hlt : n < Nat.pow 10 2 := Nat.lt_of_le_of_lt hmost h
  exact boundedNumber_of_fullNumber (fullNumber_fixed hlt rest) hleast hmost

theorem lenientDate_text {d : Date} (hexists : d.exists = true)
    (hyear : yearInRange d.year = true) (rest : List Char) :
    lenientDate (yearText d.year ++ '-' :: (fixed 2 d.month ++ '-' :: (fixed 2 d.day ++ rest))) =
      .ok (d, rest) := by
  obtain ⟨⟨hmonth, hmonth'⟩, hday, hday'⟩ := month_day_of_exists hexists
  simp only [lenientDate, bind_eq_ok_iff, Prod.exists]
  exact ⟨_, _, lenientYear_yearText hyear _, _, spacedMark_self (by decide) _,
    _, _, boundedNumber_fixed hmonth hmonth' (by decide) _, _, spacedMark_self (by decide) _,
    _, _, boundedNumber_fixed hday hday' (by decide) _, rfl⟩

theorem lenientClock_text {t : LocalTime} (hhour : t.hour ≤ 23) (hminute : t.minute ≤ 59)
    (hsecond : t.second ≤ 60) (hnanos : t.nanos < nanosPerSecond) (precision : Precision)
    (rest : List Char) :
    lenientClock t.date (fixed 2 t.hour ++ ':' :: (fixed 2 t.minute ++ ':' ::
      (fixed 2 t.second ++ (fractionText precision t.nanos ++ 'Z' :: rest)))) =
      .ok (t, 'Z' :: rest) := by
  simp only [lenientClock, bind_eq_ok_iff, Prod.exists]
  exact ⟨_, _, boundedNumber_fixed (Nat.zero_le _) hhour (by decide) _,
    _, spacedMark_self (by decide) _,
    _, _, boundedNumber_fixed (Nat.zero_le _) hminute (by decide) _,
    _, spacedMark_self (by decide) _,
    _, _, boundedNumber_fixed (Nat.zero_le _) hsecond (by decide) _,
    _, _, fraction_fractionText hnanos precision _, rfl⟩

theorem not_mem_yearText {c : Char} (hdigit : c.isDigit = false) (hsign : c ≠ '-' ∧ c ≠ '+')
    (year : Int) : c ∉ yearText year := by
  have hfixed (width n : Nat) : c ∉ fixed width n := fun h => by
    rw [isDigit_of_mem_fixed h] at hdigit
    cases hdigit
  have hdecimal (n : Nat) : c ∉ decimal n := fun h => by
    rw [isDigit_of_mem_decimal h] at hdigit
    cases hdigit
  unfold yearText
  split_ifs <;> simp [hfixed, hdecimal, hsign]

/-- A timestamp is made of digits and a few marks. -/
theorem not_mem_instant {c : Char} (hdigit : c.isDigit = false)
    (hmark : c ∉ ['-', '+', 'T', ':', '.', 'Z']) (i : Instant) : c ∉ i.text .nine := by
  have hfixed (width n : Nat) : c ∉ fixed width n := fun h => by
    rw [isDigit_of_mem_fixed h] at hdigit
    cases hdigit
  simp only [List.mem_cons, List.not_mem_nil, or_false, not_or] at hmark
  simp [Instant.text, fractionText, not_mem_yearText hdigit ⟨hmark.1, hmark.2.1⟩, hfixed, hmark]

/-- An instant is read back from the text that shows it. -/
theorem readLenient_text {i : Instant} (h : i.Shown) (precision : Precision) :
    readLenient (i.text precision) = .ok i := by
  obtain ⟨hhour, hminute, hsecond, hnanos⟩ := bounds_toLocal h
  have hexists : i.toLocal.date.exists = true := (exists_ofDays i.days).1
  have hoffset : lenientOffset (dropBlanks ['Z']) = .ok (0, []) := rfl
  have htext : i.text precision = yearText i.toLocal.date.year ++ '-' ::
      (fixed 2 i.toLocal.date.month ++ '-' :: (fixed 2 i.toLocal.date.day ++ 'T' ::
      (fixed 2 i.toLocal.hour ++ ':' :: (fixed 2 i.toLocal.minute ++ ':' ::
      (fixed 2 i.toLocal.second ++ (fractionText precision i.toLocal.nanos ++ 'Z' :: [])))))) := by
    simp [Instant.text]
  simp only [readLenient, bind_eq_ok_iff, Prod.exists, htext]
  exact ⟨_, _, lenientDate_text hexists h.inRange _, _, rfl, _, _,
    lenientClock_text hhour hminute hsecond hnanos precision [], _, _, hoffset, resolve_toLocal h⟩

/-- A leap second that only its offset puts past the year 9999. -/
example : Instant.text ⟨253402304399, 1000000001⟩ .shortest =
      "+10000-01-01T00:59:60.000000001Z".toList ∧
    readLenient (Instant.text ⟨253402304399, 1000000001⟩ .shortest) =
      .ok ⟨253402304399, 1000000001⟩ :=
  ⟨by decide, readLenient_text ⟨by decide, by decide, fun _ => by decide⟩ .shortest⟩

end ContainerCheck.Time
