import ContainerCheck.Proofs.Results
import ContainerCheck.Time.Strict
import Mathlib.Data.List.TakeWhile

namespace ContainerCheck.Time

open ContainerCheck.Text

def isStampChar (c : Char) : Bool :=
  c.isDigit || c ∈ ['-', ':', '.', 't', 'T', ' ', 'z', 'Z', '+', '\u2212']

/-- What a piece of a reader takes off a text. -/
def Takes (text rest : List Char) : Prop :=
  ∃ used, text = used ++ rest ∧ ∀ c ∈ used, isStampChar c = true

theorem Takes.refl (text : List Char) : Takes text text := ⟨[], rfl, by simp⟩

theorem Takes.trans {a b c : List Char} (hab : Takes a b) (hbc : Takes b c) : Takes a c := by
  obtain ⟨used, rfl, hused⟩ := hab
  obtain ⟨more, rfl, hmore⟩ := hbc
  refine ⟨used ++ more, (List.append_assoc _ _ _).symm, ?_⟩
  intro c hc
  rcases List.mem_append.mp hc with h | h
  · exact hused c h
  · exact hmore c h

theorem Takes.cons {c : Char} {rest : List Char} (h : isStampChar c = true) :
    Takes (c :: rest) rest := ⟨[c], rfl, by simpa using h⟩

theorem isStampChar_of_isDigit {c : Char} (h : c.isDigit = true) : isStampChar c = true := by
  simp [isStampChar, h]

/-- Digits are taken. -/
theorem Takes.digits {digits : List Char} (rest : List Char)
    (h : ∀ c ∈ digits, c.isDigit = true) : Takes (digits ++ rest) rest :=
  ⟨digits, rfl, fun c hc => isStampChar_of_isDigit (h c hc)⟩

theorem fullNumber_takes {width value : Nat} {text rest : List Char}
    (h : fullNumber width text = .ok (value, rest)) :
    (text.take width).length = width ∧ (∀ c ∈ text.take width, c.isDigit = true) ∧
      Takes text rest := by
  simp only [fullNumber] at h
  split at h
  · next hd =>
    cases h
    have hdigits := List.all_eq_true.mp hd.2
    refine ⟨hd.1, hdigits, ?_⟩
    have ht := Takes.digits (text.drop width) hdigits
    rwa [List.take_append_drop] at ht
  · cases h

theorem mark_takes {kind : Char → Bool} (hkind : ∀ c, kind c = true → isStampChar c = true)
    {text rest : List Char} (h : mark kind text = .ok rest) : Takes text rest := by
  cases text with
  | nil => cases h
  | cons c text =>
    simp only [mark] at h
    split at h
    · next hc =>
      cases h
      exact .cons (hkind c hc)
    · cases h

theorem oneOf_takes {kind : Char → Bool} (hkind : ∀ c, kind c = true → isStampChar c = true)
    {text rest : List Char} (h : oneOf kind text = .ok rest) : Takes text rest := by
  cases text with
  | nil => cases h
  | cons c text =>
    simp only [oneOf] at h
    split at h
    · next hc =>
      cases h
      exact .cons (hkind c hc)
    · cases h

theorem isStampChar_of_beq {mark c : Char} (hmark : isStampChar mark = true)
    (h : (c == mark) = true) : isStampChar c = true := by
  rw [beq_iff_eq.mp h]
  exact hmark

theorem strictDate_takes {text rest : List Char} {date : Date}
    (h : strictDate text = .ok (date, rest)) :
    (text.take 4).length = 4 ∧ (∀ c ∈ text.take 4, c.isDigit = true) ∧ Takes text rest := by
  simp only [strictDate, bind_eq_ok_iff, Prod.exists] at h
  obtain ⟨year, a, hyear, b, hb, month, c, hmonth, d, hd, day, e, hday, h⟩ := h
  cases h
  obtain ⟨hlength, hdigits, ha⟩ := fullNumber_takes hyear
  have hdash : ∀ c, (c == '-') = true → isStampChar c = true := fun c => isStampChar_of_beq rfl
  refine ⟨hlength, hdigits, ?_⟩
  exact ha.trans <| (mark_takes hdash hb).trans <| (fullNumber_takes hmonth).2.2.trans <|
    (mark_takes hdash hd).trans (fullNumber_takes hday).2.2

theorem number_takes {width value : Nat} {text rest : List Char}
    (h : number width text = .ok (value, rest)) : Takes text rest := by
  cases text with
  | nil => cases h
  | cons c text =>
    simp only [number] at h
    split at h
    · cases h
      have hprefix : ((c :: text).takeWhile Char.isDigit).take width <+: c :: text :=
        (List.take_prefix _ _).trans (List.takeWhile_prefix _)
      have hdigits : ∀ d ∈ ((c :: text).takeWhile Char.isDigit).take width, d.isDigit = true :=
        fun d hd => List.mem_takeWhile_imp (List.mem_of_mem_take hd)
      have ht := Takes.digits ((c :: text).drop
        (((c :: text).takeWhile Char.isDigit).take width).length) hdigits
      rwa [List.prefix_iff_eq_append.mp hprefix] at ht
    · cases h

theorem dropWhile_takes (text : List Char) : Takes text (text.dropWhile Char.isDigit) := by
  have ht := Takes.digits (text.dropWhile Char.isDigit)
    (fun c (hc : c ∈ text.takeWhile Char.isDigit) => List.mem_takeWhile_imp hc)
  rwa [List.takeWhile_append_dropWhile] at ht

theorem fraction_takes {nanos : Nat} {text rest : List Char}
    (h : fraction text = .ok (nanos, rest)) : Takes text rest := by
  unfold fraction at h
  split at h
  · next tail =>
    split at h
    · cases h
    · next value after hn =>
      cases h
      have hdot : Takes ('.' :: tail) tail := .cons rfl
      exact hdot.trans <| (number_takes hn).trans (dropWhile_takes after)
  · cases h
    exact .refl _

theorem strictClock_takes {date : Date} {time : LocalTime} {text rest : List Char}
    (h : strictClock date text = .ok (time, rest)) : Takes text rest := by
  simp only [strictClock, bind_eq_ok_iff, Prod.exists] at h
  obtain ⟨hour, a, hhour, b, hb, minute, c, hminute, d, hd, second, e, hsecond, nanos, f, hf, h⟩ :=
    h
  have hcolon : ∀ c, (c == ':') = true → isStampChar c = true := fun c => isStampChar_of_beq rfl
  split at h
  · cases h
    exact (fullNumber_takes hhour).2.2.trans <| (mark_takes hcolon hb).trans <|
      (fullNumber_takes hminute).2.2.trans <| (mark_takes hcolon hd).trans <|
      (fullNumber_takes hsecond).2.2.trans (fraction_takes hf)
  · cases h

theorem twoDigits_takes {limited : Bool} {value : Nat} {text rest : List Char}
    (h : twoDigits limited text = .ok (value, rest)) : Takes text rest := by
  unfold twoDigits at h
  split at h
  · cases h
  · split at h
    · next a b tail _ =>
      split at h
      · next hd =>
        have hd := Bool.and_eq_true_iff.mp hd
        split at h
        · cases h
        · cases h
          exact Takes.digits _ (show ∀ c ∈ [a, b], c.isDigit = true by simpa using hd)
      · cases h
    · cases h

theorem offsetSign_takes {c : Char} {negative : Bool} (h : offsetSign? c = some negative) :
    isStampChar c = true := by
  unfold offsetSign? at h
  split at h
  · next hc =>
    subst hc
    rfl
  · split at h
    · next hc =>
      rcases hc with rfl | rfl <;> rfl
    · cases h

theorem offset_takes {separator : List Char → Except StampFault (List Char)}
    (hs : ∀ {text rest}, separator text = .ok rest → Takes text rest) {span : Int}
    {text rest : List Char} (h : offset separator text = .ok (span, rest)) : Takes text rest := by
  cases text with
  | nil => cases h
  | cons c text =>
    simp only [offset] at h
    split at h
    · next hz =>
      cases h
      rcases hz with rfl | rfl
      · exact .cons rfl
      · exact .cons rfl
    · split at h
      · cases h
      · next negative hsign =>
        simp only [bind_eq_ok_iff, Prod.exists] at h
        obtain ⟨hours, a, hhours, b, hb, minutes, d, hminutes, h⟩ := h
        cases h
        have hc : Takes (c :: text) text := .cons (offsetSign_takes hsign)
        exact hc.trans <| (twoDigits_takes hhours).trans <| (hs hb).trans (twoDigits_takes hminutes)

/-- A strict timestamp begins with a digit, and all of it is digits and marks. -/
theorem stamp_of_readStrict {text : List Char} {instant : Instant}
    (h : readStrict text = .ok instant) :
    (∃ c rest, text = c :: rest ∧ c.isDigit = true) ∧ ∀ c ∈ text, isStampChar c = true := by
  have hends : ∀ c, isDateEnd c = true → isStampChar c = true := by
    intro c hc
    simp only [isDateEnd, Bool.or_eq_true, beq_iff_eq] at hc
    rcases hc with (rfl | rfl) | rfl <;> rfl
  have hcolon : ∀ c, (c == ':') = true → isStampChar c = true := fun c => isStampChar_of_beq rfl
  unfold readStrict at h
  split at h
  · cases h
  · simp only [bind_eq_ok_iff, Prod.exists] at h
    obtain ⟨date, a, hdate, h⟩ := h
    split at h
    · obtain ⟨_, ⟨⟩, _⟩ := h
    · simp only [bind_eq_ok_iff, Prod.exists] at h
      obtain ⟨b, hb, time, c, htime, span, d, hspan, h⟩ := h
      split at h
      · obtain ⟨_, ⟨⟩, _⟩ := h
      · next hd =>
        obtain ⟨hlength, hdigits, ha⟩ := strictDate_takes hdate
        have htakes := ha.trans <| (mark_takes hends hb).trans <| (strictClock_takes htime).trans
          (offset_takes (oneOf_takes hcolon) hspan)
        -- Nothing is left behind the offset, so what was taken is all there is.
        rw [not_not.mp hd] at htakes
        obtain ⟨used, rfl, hused⟩ := htakes
        rw [List.append_nil] at hlength hdigits ⊢
        refine ⟨?_, hused⟩
        cases used with
        | nil => cases hlength
        | cons c used => exact ⟨c, used, rfl, hdigits c (by simp)⟩

end ContainerCheck.Time
