import ContainerCheck.Proofs.WrittenJson

namespace ContainerCheck.Json

open ContainerCheck.Text

def IsDigits (text : List Char) : Prop := text ≠ [] ∧ ∀ c ∈ text, c.isDigit = true

inductive WholeText : List Char → Prop
  | zero : WholeText ['0']
  | digits {c : Char} {rest : List Char} (hc : c.isDigit = true) (hne : c ≠ '0')
    (h : ∀ d ∈ rest, d.isDigit = true) : WholeText (c :: rest)

inductive FractionText : List Char → Prop
  | none : FractionText []
  | digits {digits : List Char} (h : IsDigits digits) : FractionText ('.' :: digits)

inductive ExponentText : List Char → Prop
  | none : ExponentText []
  | digits {letter : Char} {sign digits : List Char} (hletter : letter = 'e' ∨ letter = 'E')
    (hsign : sign = [] ∨ sign = ['+'] ∨ sign = ['-']) (h : IsDigits digits) :
    ExponentText (letter :: (sign ++ digits))

inductive NumeralText : List Char → Prop
  | mk {whole fraction exponent : List Char} (hwhole : WholeText whole)
    (hfraction : FractionText fraction) (hexponent : ExponentText exponent) :
    NumeralText (whole ++ (fraction ++ exponent))

/-- What may stand in a string by its form; surrogates need not pair. -/
inductive RawText : List Char → Prop
  | nil : RawText []
  | bare {c : Char} {rest : List Char} (hc : isPlain c = true) (h : RawText rest) :
    RawText (c :: rest)
  | short {letter c : Char} {rest : List Char} (hc : (letter, c) ∈ shortEscapes)
    (h : RawText rest) : RawText ('\\' :: letter :: rest)
  | unit {n : Nat} {written rest : List Char} (hn : n < 0x10000) (hc : UnitSpelling n written)
    (h : RawText rest) : RawText (written ++ rest)

def Frame.bracket : Frame → Char
  | .list => '['
  | .object => '\x7b'

/-- What stands in front of a value in a frame: in an object, its key and the colon. -/
inductive Frame.Front : Frame → List Char → Prop
  | list {spaces : List Char} (h : IsSpaces spaces) : Front .list spaces
  | object {before key behind after : List Char} (hbefore : IsSpaces before) (hkey : RawText key)
    (hbehind : IsSpaces behind) (hafter : IsSpaces after) :
    Front .object (before ++ '"' :: (key ++ '"' :: (behind ++ ':' :: after)))

/-- A piece of JSON: a value, or the values between the brackets of a frame. -/
inductive Piece
  | value
  | parts (frame : Frame)

inductive JsonText : Piece → List Char → Prop
  | null : JsonText .value ['n', 'u', 'l', 'l']
  | true : JsonText .value ['t', 'r', 'u', 'e']
  | false : JsonText .value ['f', 'a', 'l', 's', 'e']
  | number {text : List Char} (h : NumeralText text) : JsonText .value text
  | negative {text : List Char} (h : NumeralText text) : JsonText .value ('-' :: text)
  | string {content : List Char} (h : RawText content) :
    JsonText .value ('"' :: (content ++ ['"']))
  | empty (frame : Frame) {spaces : List Char} (h : IsSpaces spaces) :
    JsonText .value (frame.bracket :: (spaces ++ [frame.close]))
  | full {frame : Frame} {body : List Char} (h : JsonText (.parts frame) body) :
    JsonText .value (frame.bracket :: (body ++ [frame.close]))
  | last {frame : Frame} {front value after : List Char} (hfront : frame.Front front)
    (hvalue : JsonText .value value) (hafter : IsSpaces after) :
    JsonText (.parts frame) (front ++ (value ++ after))
  | more {frame : Frame} {front value after rest : List Char} (hfront : frame.Front front)
    (hvalue : JsonText .value value) (hafter : IsSpaces after)
    (hrest : JsonText (.parts frame) rest) :
    JsonText (.parts frame) (front ++ (value ++ (after ++ ',' :: rest)))

def goesOn (c : Char) : Bool := c.isDigit || c == '.' || c == 'e' || c == 'E'

def Stops (rest : List Char) : Prop := ∀ c ∈ rest.head?, goesOn c = false

def StopsDigits (rest : List Char) : Prop := ∀ c ∈ rest.head?, c.isDigit = false

section

variable {digits rest : List Char}

theorem Stops.stopsDigits (h : Stops rest) : StopsDigits rest := by
  intro c hc
  have hgoes := h c hc
  simp only [goesOn, Bool.or_eq_false_iff] at hgoes
  exact hgoes.1.1.1

/-- A zero in front of such a text is a number of its own. -/
theorem StopsDigits.head (h : StopsDigits rest) :
    (rest.head?.map Char.isDigit).getD false = false := by
  cases rest with
  | nil => rfl
  | cons c rest => exact h c rfl

theorem stops_of_isSpaces {spaces : List Char} (h : IsSpaces spaces) {c : Char}
    (hc : goesOn c = false) : Stops (spaces ++ c :: rest) := by
  cases spaces with
  | nil => simpa [Stops] using hc
  | cons d spaces =>
    have hspace := h d List.mem_cons_self
    simp only [isSpace, Bool.or_eq_true, beq_iff_eq] at hspace
    rintro _ ⟨⟩
    rcases hspace with ((rfl | rfl) | rfl) | rfl <;> decide

theorem dropWhile_digits (h : ∀ c ∈ digits, c.isDigit = true) (hrest : StopsDigits rest) :
    (digits ++ rest).dropWhile Char.isDigit = rest := by
  rw [List.dropWhile_append_of_pos h]
  cases rest with
  | nil => rfl
  | cons c rest => rw [List.dropWhile_cons_of_neg (by simp [hrest c rfl])]

theorem takeWhile_digits (h : ∀ c ∈ digits, c.isDigit = true) (hrest : StopsDigits rest) :
    (digits ++ rest).takeWhile Char.isDigit = digits := by
  rw [List.takeWhile_append_of_pos h]
  cases rest with
  | nil => simp
  | cons c rest => simp [hrest c rfl]

theorem skipDigits_digits (h : IsDigits digits) (hrest : StopsDigits rest) :
    skipDigits (digits ++ rest) = .ok rest := by
  obtain ⟨hne, hall⟩ := h
  cases digits with
  | nil => exact absurd rfl hne
  | cons c digits =>
    have hmore : ∀ d ∈ digits, d.isDigit = true := fun d hd => hall d (List.mem_cons_of_mem c hd)
    simp only [List.cons_append, skipDigits, hall c List.mem_cons_self, if_true,
      dropWhile_digits hmore hrest]

theorem skipExponent_digits {sign : List Char} (hsign : sign = [] ∨ sign = ['+'] ∨ sign = ['-'])
    (h : IsDigits digits) (hrest : StopsDigits rest) :
    skipExponent (sign ++ digits ++ rest) = .ok rest := by
  have hskip := skipDigits_digits h hrest
  rcases hsign with rfl | rfl | rfl
  · rw [List.nil_append]
    unfold skipExponent
    split
    · next hplus =>
      obtain ⟨c, tail, rfl⟩ := List.exists_cons_of_ne_nil h.1
      cases hplus
      exact absurd (h.2 '+' List.mem_cons_self) (by decide)
    · next hminus =>
      obtain ⟨c, tail, rfl⟩ := List.exists_cons_of_ne_nil h.1
      cases hminus
      exact absurd (h.2 '-' List.mem_cons_self) (by decide)
    · exact hskip
  · exact hskip
  · exact hskip

theorem stopsDigits_exponent {exponent : List Char} (h : ExponentText exponent)
    (hrest : Stops rest) : StopsDigits (exponent ++ rest) := by
  cases h with
  | none => exact hrest.stopsDigits
  | digits hletter =>
    rintro _ ⟨⟩
    rcases hletter with rfl | rfl <;> decide

/-- What follows the point of a number. -/
theorem skipFraction_digits {exponent : List Char} (h : IsDigits digits)
    (hexponent : ExponentText exponent) (hrest : Stops rest) :
    skipFraction (digits ++ (exponent ++ rest)) = .ok rest := by
  have hstops := stopsDigits_exponent hexponent hrest
  obtain ⟨c, tail, rfl⟩ := List.exists_cons_of_ne_nil h.1
  unfold skipFraction
  rw [takeWhile_digits h.2 hstops, dropWhile_digits h.2 hstops]
  cases hexponent with
  | none =>
    rw [List.nil_append]
    split
    · next hnil => cases hnil
    · exact absurd (hrest 'e' rfl) (by decide)
    · exact absurd (hrest 'E' rfl) (by decide)
    · rfl
  | digits hletter hsign hdigits =>
    have hskip := skipExponent_digits hsign hdigits hrest.stopsDigits
    rcases hletter with rfl | rfl
    · exact hskip
    · exact hskip

def skipTail (text : List Char) : Except Failure (List Char) :=
  match text with
  | '.' :: rest => skipFraction rest
  | 'e' :: rest => skipExponent rest
  | 'E' :: rest => skipExponent rest
  | _ => .ok text

theorem skipNumeral_whole {whole : List Char} (h : WholeText whole) (hrest : StopsDigits rest) :
    skipNumeral (whole ++ rest) = skipTail rest := by
  cases h with
  | zero =>
    simp only [skipNumeral, List.cons_append, List.nil_append, hrest.head, Bool.false_eq_true,
      if_false]
    rfl
  | @digits c more hc hne hmore =>
    have hskip : skipDigits (c :: more ++ rest) = .ok rest :=
      skipDigits_digits ⟨List.cons_ne_nil c more, List.forall_mem_cons.mpr ⟨hc, hmore⟩⟩ hrest
    rw [List.cons_append] at hskip ⊢
    unfold skipNumeral
    split
    · next hzero =>
      cases hzero
      exact absurd rfl hne
    · rw [hskip]
      rfl

theorem skipNumeral_numeral {text : List Char} (h : NumeralText text) (hrest : Stops rest) :
    skipNumeral (text ++ rest) = .ok rest := by
  cases h with
  | @mk whole fraction exponent hwhole hfraction hexponent =>
    have hbehind := stopsDigits_exponent hexponent hrest
    have hstops : StopsDigits (fraction ++ (exponent ++ rest)) := by
      cases hfraction with
      | none => exact hbehind
      | digits =>
        rintro _ ⟨⟩
        decide
    rw [List.append_assoc, List.append_assoc, skipNumeral_whole hwhole hstops]
    cases hfraction with
    | digits hdigits => exact skipFraction_digits hdigits hexponent hrest
    | none =>
      cases hexponent with
      | digits hletter hsign hdigits =>
        have hdone := skipExponent_digits hsign hdigits hrest.stopsDigits
        rcases hletter with rfl | rfl
        · exact hdone
        · exact hdone
      | none =>
        rw [List.nil_append, List.nil_append]
        unfold skipTail
        split
        · exact absurd (hrest '.' rfl) (by decide)
        · exact absurd (hrest 'e' rfl) (by decide)
        · exact absurd (hrest 'E' rfl) (by decide)
        · rfl

end

theorem skipString_raw {content : List Char} (h : RawText content) (rest : List Char) :
    skipString (content ++ '"' :: rest) = .ok rest := by
  induction h with
  | nil =>
    rw [List.nil_append, skipString.eq_def]
    rfl
  | @bare c content hc _ ih =>
    simp only [isPlain, Bool.and_eq_true, decide_eq_true_eq, bne_iff_ne] at hc
    obtain ⟨⟨hcontrol, hquote⟩, hslash⟩ := hc
    have hspace : ¬ c < ' ' := by
      rw [Char.lt_def, UInt32.lt_iff_toNat_lt]
      exact Nat.not_lt.mpr hcontrol
    rw [List.cons_append, skipString.eq_def]
    simp only [hquote, hslash, hspace, if_false, ih]
  | short hc _ ih =>
    obtain ⟨hescape, hletter⟩ := simpleEscape?_of_mem hc
    rw [List.cons_append, List.cons_append, skipString.eq_def]
    simp [hescape, ih]
  | unit hn hc _ ih =>
    obtain ⟨ha, hb, hc', hd⟩ := hc
    have hquad := hexQuad?_of_isHexDigit hn ha hb hc' hd
    rw [List.append_assoc, List.cons_append, List.cons_append, List.cons_append, List.cons_append,
      List.cons_append, List.cons_append, List.nil_append, skipString.eq_def]
    simp [hquad, ih]

theorem readWord_word (letters rest : List Char) :
    readWord letters (letters ++ rest) = .ok rest := by
  induction letters with
  | nil => rfl
  | cons letter letters ih => rw [List.cons_append, readWord, if_pos rfl, ih]

section

variable {frame : Frame} {frames : List Frame} {spaces text rest : List Char}

theorem Frame.close_spaceless (frame : Frame) :
    isSpace frame.close = false ∧ frame.close ≠ ',' := by
  cases frame <;> decide

/-- What stands in front of a value is passed, up to white space. -/
theorem Frame.Front.enter {front : List Char} (h : frame.Front front) :
    ∃ spaces, IsSpaces spaces ∧ ∀ text, frame.enter (front ++ text) = .ok (spaces ++ text) := by
  cases h with
  | list h => exact ⟨_, h, fun text => rfl⟩
  | @object before key behind after hbefore hkey hbehind hafter =>
    refine ⟨after, hafter, fun text => ?_⟩
    have hcolon := readColon_colon hbehind (after ++ text)
    simp only [List.append_assoc, List.cons_append, Frame.enter,
      skipSpaces_next hbefore (show isSpace '"' = false from rfl), if_true, skipString_raw hkey,
      bind, Except.bind, hcolon]

theorem leave_close (h : IsSpaces spaces) (rest : List Char) :
    leave (frame :: frames) (spaces ++ frame.close :: rest) = leave frames rest := by
  obtain ⟨hspace, hcomma⟩ := frame.close_spaceless
  rw [leave, skipSpaces_next h hspace]
  simp only [hcomma, if_false, if_true]

theorem leave_comma (h : IsSpaces spaces) (hrest : frame.enter text = .ok rest) :
    leave (frame :: frames) (spaces ++ ',' :: text) = .ok (frame :: frames, rest) := by
  rw [leave, skipSpaces_next h (by decide)]
  simp only [if_true, hrest]

def Begins (text : List Char) : Prop :=
  ∃ c rest, text = c :: rest ∧ isSpace c = false ∧ c ≠ ']' ∧ c ≠ '\x7d'

theorem Begins.append (h : Begins text) (rest : List Char) : Begins (text ++ rest) := by
  obtain ⟨c, tail, rfl, hc⟩ := h
  exact ⟨c, tail ++ rest, rfl, hc⟩

/-- Behind a bracket the first value is entered. -/
theorem openFrame_front {front : List Char} (h : frame.Front front) (htext : Begins text) :
    ∃ spaces, IsSpaces spaces ∧ ∀ frames,
      openFrame frame frames (front ++ text) = .ok (frame :: frames, spaces ++ text) := by
  cases h with
  | list h =>
    obtain ⟨c, rest, rfl, hspace, hclose, -⟩ := htext
    refine ⟨[], nofun, fun frames => ?_⟩
    rw [openFrame, skipSpaces_next h hspace]
    simp only [Frame.close, hclose, if_false, Frame.enter, List.nil_append]
  | @object before key behind after hbefore hkey hbehind hafter =>
    have hfront : Frame.Front .object ([] ++ '"' :: (key ++ '"' :: (behind ++ ':' :: after))) :=
      .object nofun hkey hbehind hafter
    -- The white space in front of the first key is passed while looking for the bracket.
    obtain ⟨spaces, hspaces, henter⟩ := hfront.enter
    refine ⟨spaces, hspaces, fun frames => ?_⟩
    rw [List.append_assoc, openFrame, List.cons_append, skipSpaces_next hbefore (by decide)]
    have hkeyed := henter text
    rw [List.nil_append, List.cons_append] at hkeyed
    simp only [hkeyed]
    rfl

theorem openFrame_empty (h : IsSpaces spaces) (rest : List Char) :
    openFrame frame frames (spaces ++ frame.close :: rest) = leave frames rest := by
  rw [openFrame, skipSpaces_next h frame.close_spaceless.1]
  exact if_pos rfl

end

def resume (fuel : Nat) (frames : List Frame) (text : List Char) : Except Failure (List Char) :=
  match leave frames text with
  | .error failure => .error failure
  | .ok ([], rest) => .ok rest
  | .ok (frame :: outer, rest) => skipIn fuel (frame :: outer) rest

section

variable {frame : Frame} {frames : List Frame} {fuel : Nat} {c : Char}
  {spaces text rest : List Char}

theorem skipIn_scalar (h : IsSpaces spaces) (hc : isSpace c = false)
    (hbrackets : c ≠ '[' ∧ c ≠ '\x7b') (hskip : skipScalar c text = .ok rest) :
    skipIn (fuel + 1) frames (spaces ++ c :: text) = resume fuel frames rest := by
  rw [skipIn, skipStep, skipSpaces_next h hc]
  simp only [hbrackets.1, hbrackets.2, if_false, hskip]
  rfl

theorem skipIn_bracket (h : IsSpaces spaces) :
    skipIn (fuel + 1) frames (spaces ++ frame.bracket :: text) =
      match openFrame frame frames text with
      | .error failure => .error failure
      | .ok ([], rest) => .ok rest
      | .ok (frame :: outer, rest) => skipIn fuel (frame :: outer) rest := by
  cases frame with
  | list =>
    rw [skipIn, skipStep, skipSpaces_next h (by decide)]
    rfl
  | object =>
    rw [skipIn, skipStep, skipSpaces_next h (by decide)]
    rfl

theorem resume_close (h : IsSpaces spaces) :
    resume fuel (frame :: frames) (spaces ++ frame.close :: rest) = resume fuel frames rest := by
  rw [resume, leave_close h]
  rfl

theorem resume_comma (h : IsSpaces spaces) (hrest : frame.enter text = .ok rest) :
    resume fuel (frame :: frames) (spaces ++ ',' :: text) = skipIn fuel (frame :: frames) rest := by
  rw [resume, leave_comma h hrest]

def IsScalar (value : List Char) : Prop :=
  ∃ c text, value = c :: text ∧ isSpace c = false ∧ (c ≠ '[' ∧ c ≠ '\x7b') ∧
    (c ≠ ']' ∧ c ≠ '\x7d') ∧ ∀ rest, Stops rest → skipScalar c (text ++ rest) = .ok rest

/-- What is passed of a piece, and that no step is longer than what it passes. -/
def Passed : Piece → List Char → Prop
  -- The fuel that is left and the frames around are any, so that pieces compose.
  | .value, value => Begins value ∧ ∃ steps ≤ value.length, ∀ fuel frames spaces rest,
      IsSpaces spaces → Stops rest →
        skipIn (fuel + steps) frames (spaces ++ (value ++ rest)) = resume fuel frames rest
  -- The front of the first value is passed by what opens the frame, or by the comma before it.
  | .parts frame, text => ∃ front body, text = front ++ body ∧ frame.Front front ∧ Begins body ∧
      ∃ steps ≤ body.length, ∀ fuel frames spaces rest, IsSpaces spaces →
        skipIn (fuel + steps) (frame :: frames) (spaces ++ (body ++ frame.close :: rest)) =
          resume fuel frames rest

theorem passed_of_isScalar {value : List Char} (h : IsScalar value) : Passed .value value := by
  obtain ⟨c, text, rfl, hspace, hopens, hcloses, hskip⟩ := h
  refine ⟨⟨c, text, rfl, hspace, hcloses⟩, 1, Nat.le_add_left 1 text.length, ?_⟩
  intro fuel frames spaces rest hspaces hrest
  exact skipIn_scalar hspaces hspace hopens (hskip rest hrest)

theorem WholeText.begins {text : List Char} (h : WholeText text) :
    ∃ c rest, text = c :: rest ∧ c.isDigit = true := by
  cases h with
  | zero => exact ⟨'0', _, rfl, rfl⟩
  | digits hc => exact ⟨_, _, rfl, hc⟩

theorem NumeralText.begins {text : List Char} (h : NumeralText text) :
    ∃ c rest, text = c :: rest ∧ c.isDigit = true := by
  obtain ⟨hwhole, -, -⟩ := h
  obtain ⟨c, tail, rfl, hc⟩ := hwhole.begins
  exact ⟨c, _, rfl, hc⟩

theorem ne_of_isDigit {d : Char} (hc : c.isDigit = true) (hd : d.isDigit = false) : c ≠ d := by
  rintro rfl
  rw [hc] at hd
  cases hd

theorem isSpace_of_isDigit (h : c.isDigit = true) : isSpace c = false := by
  have hne (d : Char) (hd : d.isDigit = false) : c ≠ d := ne_of_isDigit h hd
  simp [isSpace, hne ' ' rfl, hne '\n' rfl, hne '\t' rfl, hne '\r' rfl]

theorem isScalar_numeral {text : List Char} (h : NumeralText text) : IsScalar text := by
  obtain ⟨c, tail, rfl, hdigit⟩ := h.begins
  have hne (d : Char) (hd : d.isDigit = false) : c ≠ d := ne_of_isDigit hdigit hd
  refine ⟨c, tail, rfl, isSpace_of_isDigit hdigit, ⟨hne '[' rfl, hne '\x7b' rfl⟩,
    ⟨hne ']' rfl, hne '\x7d' rfl⟩, ?_⟩
  intro rest hrest
  have hskip := skipNumeral_numeral h hrest
  rw [List.cons_append] at hskip
  simp only [skipScalar, hne 'n' rfl, hne 't' rfl, hne 'f' rfl, hne '-' rfl, hdigit, if_false,
    if_true, hskip]

theorem isScalar_negative {text : List Char} (h : NumeralText text) : IsScalar ('-' :: text) :=
  ⟨'-', text, rfl, by decide, by decide, by decide, fun _ hrest => skipNumeral_numeral h hrest⟩

theorem isScalar_string {content : List Char} (h : RawText content) :
    IsScalar ('"' :: (content ++ ['"'])) := by
  refine ⟨'"', _, rfl, by decide, by decide, by decide, fun rest _ => ?_⟩
  rw [List.append_assoc]
  exact skipString_raw h rest

theorem passed_empty (frame : Frame) (h : IsSpaces spaces) :
    Passed .value (frame.bracket :: (spaces ++ [frame.close])) := by
  refine ⟨⟨_, _, rfl, by cases frame <;> decide⟩, 1, Nat.le_add_left 1 _, ?_⟩
  intro fuel frames before rest hbefore _
  rw [List.cons_append, List.append_assoc, skipIn_bracket hbefore, List.cons_append,
    List.nil_append, openFrame_empty h]
  rfl

theorem passed_full (h : Passed (.parts frame) text) :
    Passed .value (frame.bracket :: (text ++ [frame.close])) := by
  obtain ⟨front, body, rfl, hfront, hbody, steps, hsteps, hpass⟩ := h
  refine ⟨⟨_, _, rfl, by cases frame <;> decide⟩, steps + 1, ?_, ?_⟩
  · simp only [List.length_cons, List.length_append]
    omega
  · intro fuel frames before rest hbefore _
    obtain ⟨spaces, hspaces, hopen⟩ :=
      openFrame_front hfront (hbody.append (frame.close :: rest))
    have htext : frame.bracket :: (front ++ body ++ [frame.close]) ++ rest =
        frame.bracket :: (front ++ (body ++ frame.close :: rest)) := by
      simp
    rw [htext, ← Nat.add_assoc, skipIn_bracket hbefore, hopen]
    exact hpass fuel frames spaces rest hspaces

theorem stops_close (h : IsSpaces spaces) (frame : Frame) (rest : List Char) :
    Stops (spaces ++ frame.close :: rest) :=
  stops_of_isSpaces h (by cases frame <;> decide)

theorem passed_last {front value after : List Char} (hfront : frame.Front front)
    (hvalue : Passed .value value) (hafter : IsSpaces after) :
    Passed (.parts frame) (front ++ (value ++ after)) := by
  obtain ⟨hbegins, steps, hsteps, hpass⟩ := hvalue
  refine ⟨front, value ++ after, rfl, hfront, hbegins.append after, steps, ?_, ?_⟩
  · rw [List.length_append]
    omega
  · intro fuel frames spaces rest hspaces
    rw [List.append_assoc, hpass fuel _ spaces _ hspaces (stops_close hafter frame rest),
      resume_close hafter]

theorem passed_more {front value after : List Char} (hfront : frame.Front front)
    (hvalue : Passed .value value) (hafter : IsSpaces after)
    (hrest : Passed (.parts frame) rest) :
    Passed (.parts frame) (front ++ (value ++ (after ++ ',' :: rest))) := by
  obtain ⟨hbegins, steps, hsteps, hpass⟩ := hvalue
  obtain ⟨front', body, rfl, hfront', -, steps', hsteps', hpass'⟩ := hrest
  refine ⟨front, _, rfl, hfront, hbegins.append _, steps' + steps, ?_, ?_⟩
  · simp only [List.length_append, List.length_cons]
    omega
  · intro fuel frames spaces rest hspaces
    obtain ⟨behind, hbehind, henter⟩ := hfront'.enter
    have htext : value ++ (after ++ ',' :: (front' ++ body)) ++ frame.close :: rest =
        value ++ (after ++ ',' :: (front' ++ (body ++ frame.close :: rest))) := by
      simp
    have hstops : Stops (after ++ ',' :: (front' ++ (body ++ frame.close :: rest))) :=
      stops_of_isSpaces hafter (by decide)
    rw [htext, ← Nat.add_assoc, hpass _ _ spaces _ hspaces hstops,
      resume_comma hafter (henter _), hpass' fuel frames behind rest hbehind]

/-- Every piece of JSON is passed. -/
theorem passed_of_jsonText {piece : Piece} (h : JsonText piece text) : Passed piece text := by
  induction h with
  | null =>
    exact passed_of_isScalar
      ⟨'n', _, rfl, by decide, by decide, by decide, fun rest _ => readWord_word _ rest⟩
  | true =>
    exact passed_of_isScalar
      ⟨'t', _, rfl, by decide, by decide, by decide, fun rest _ => readWord_word _ rest⟩
  | false =>
    exact passed_of_isScalar
      ⟨'f', _, rfl, by decide, by decide, by decide, fun rest _ => readWord_word _ rest⟩
  | number h => exact passed_of_isScalar (isScalar_numeral h)
  | negative h => exact passed_of_isScalar (isScalar_negative h)
  | string h => exact passed_of_isScalar (isScalar_string h)
  | empty frame h => exact passed_empty frame h
  | full _ ih => exact passed_full ih
  | last hfront _ hafter ih => exact passed_last hfront ih hafter
  | more hfront _ hafter _ ihvalue ihrest => exact passed_more hfront ihvalue hafter ihrest

/-- A value is passed over to its end, whatever it is and whatever follows it. -/
theorem skipValue_jsonText {value : List Char} (h : JsonText .value value)
    (hspaces : IsSpaces spaces) (hrest : Stops rest) :
    skipValue (spaces ++ (value ++ rest)) = .ok rest := by
  obtain ⟨-, steps, hsteps, hpass⟩ := passed_of_jsonText h
  have hfuel : (spaces ++ (value ++ rest)).length + 1 =
      ((spaces ++ (value ++ rest)).length + 1 - steps) + steps := by
    simp only [List.length_append]
    omega
  rw [skipValue, hfuel, hpass _ [] spaces rest hspaces hrest]
  rfl

end

end ContainerCheck.Json
