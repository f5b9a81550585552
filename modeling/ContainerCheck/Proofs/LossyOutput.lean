import ContainerCheck.Check.Lifecycle
import ContainerCheck.Proofs.Conduct
import ContainerCheck.Proofs.Utf8

namespace ContainerCheck

namespace Text

def BeginsChar (bytes : List UInt8) : Prop := ∃ c rest, String.utf8EncodeChar c = bytes ++ rest

/-- Bytes that count as one replacement in front of `rest`. -/
inductive Broken : List UInt8 → List UInt8 → Prop
  /-- A byte that begins no character. -/
  | stray {b : UInt8} {rest : List UInt8} (hnone : ¬ BeginsChar [b]) : Broken [b] rest
  /-- A character that is cut short: what follows does not go on with it. -/
  | cut {piece rest : List UInt8} (hpiece : piece ≠ []) (hbegins : BeginsChar piece)
      (hshort : ∀ c, String.utf8EncodeChar c ≠ piece)
      (hstops : ∀ b tail, rest = b :: tail → ¬ BeginsChar (piece ++ [b])) : Broken piece rest

/-- Bytes that pass for a text. -/
inductive PassesFor : List UInt8 → List Char → Prop
  | nil : PassesFor [] []
  | char (c : Char) {rest : List UInt8} {text : List Char} (hrest : PassesFor rest text) :
      PassesFor (String.utf8EncodeChar c ++ rest) (c :: text)
  | broken {piece rest : List UInt8} {text : List Char} (hpiece : Broken piece rest)
      (hrest : PassesFor rest text) : PassesFor (piece ++ rest) (replacement :: text)

section

variable {a b c d : UInt8} {bytes tail rest : List UInt8} {text text' : List Char}

theorem CharBytes.width?_lead {ch : Char} (h : CharBytes (a :: tail) ch) :
    width? a = some (tail.length + 1) := by
  cases h <;> assumption

theorem exists_isSecond (a : UInt8) : ∃ b, isSecond a b = true := by
  by_cases ha : a.toNat = 0xed ∨ a.toNat = 0xf4
  · refine ⟨0x80, isSecond_iff.mpr ?_⟩
    rw [show (0x80 : UInt8).toNat = 0x80 from rfl]
    omega
  · refine ⟨0xa0, isSecond_iff.mpr ?_⟩
    rw [show (0xa0 : UInt8).toNat = 0xa0 from rfl]
    omega

theorem beginsChar_lead_iff : BeginsChar [a] ↔ ∃ width, width? a = some width := by
  constructor
  · rintro ⟨ch, rest, h⟩
    have hbytes := charBytes_utf8EncodeChar ch
    rw [h] at hbytes
    exact ⟨_, hbytes.width?_lead⟩
  · rintro ⟨width, hw⟩
    obtain ⟨b, hb⟩ := exists_isSecond a
    obtain ⟨rfl, -⟩ | ⟨rfl, -⟩ | ⟨rfl, -⟩ | ⟨rfl, -⟩ := width?_bounds hw
    · exact ⟨_, [], (CharBytes.one hw).encode_eq⟩
    · exact ⟨_, [b], (CharBytes.two hw hb).encode_eq⟩
    · exact ⟨_, [b, 0x80], (CharBytes.three (c := 0x80) hw hb rfl).encode_eq⟩
    · exact ⟨_, [b, 0x80, 0x80],
        (CharBytes.four (c := 0x80) (d := 0x80) hw hb rfl rfl).encode_eq⟩

theorem isSecond_of_beginsChar (h : BeginsChar [a, b]) : isSecond a b = true := by
  obtain ⟨ch, rest, h⟩ := h
  have hbytes := charBytes_utf8EncodeChar ch
  rw [h] at hbytes
  cases hbytes <;> assumption

theorem third_of_beginsChar (h : BeginsChar [a, b, c]) : isContinuation c = true := by
  obtain ⟨ch, rest, h⟩ := h
  have hbytes := charBytes_utf8EncodeChar ch
  rw [h] at hbytes
  cases hbytes <;> assumption

theorem fourth_of_beginsChar (h : BeginsChar [a, b, c, d]) : isContinuation d = true := by
  obtain ⟨ch, rest, h⟩ := h
  have hbytes := charBytes_utf8EncodeChar ch
  rw [h] at hbytes
  cases hbytes
  assumption

/-- A second byte that may stand there begins a character, or goes on with one. -/
theorem beginsChar_second {width : Nat} (hw : width? a = some width) (hlong : 2 ≤ width)
    (hb : isSecond a b = true) : BeginsChar [a, b] := by
  obtain ⟨rfl, -⟩ | ⟨rfl, -⟩ | ⟨rfl, -⟩ | ⟨rfl, -⟩ := width?_bounds hw
  · omega
  · exact ⟨_, [], (CharBytes.two hw hb).encode_eq⟩
  · exact ⟨_, [0x80], (CharBytes.three (c := 0x80) hw hb rfl).encode_eq⟩
  · exact ⟨_, [0x80, 0x80], (CharBytes.four (c := 0x80) (d := 0x80) hw hb rfl rfl).encode_eq⟩

theorem beginsChar_third (hw : width? a = some 4) (hb : isSecond a b = true)
    (hc : isContinuation c = true) : BeginsChar [a, b, c] :=
  ⟨_, [0x80], (CharBytes.four (d := 0x80) hw hb hc rfl).encode_eq⟩

/-- A character that is cut short is shorter than its first byte says. -/
theorem broken_cut (hbegins : BeginsChar (a :: tail)) (hshort : width? a ≠ some (tail.length + 1))
    (hstops : ∀ x more, rest = x :: more → ¬ BeginsChar (a :: tail ++ [x])) :
    Broken (a :: tail) rest := by
  refine .cut (List.cons_ne_nil a tail) hbegins ?_ hstops
  intro ch hch
  have hbytes := charBytes_utf8EncodeChar ch
  rw [hch] at hbytes
  exact hshort hbytes.width?_lead

theorem broken_lead {width : Nat} (hw : width? a = some width) (hlong : 2 ≤ width)
    (hstops : ∀ x more, rest = x :: more → isSecond a x ≠ true) : Broken [a] rest := by
  refine broken_cut (beginsChar_lead_iff.mpr ⟨width, hw⟩) ?_ ?_
  · rw [hw, List.length_nil, ne_eq, Option.some_inj]
    omega
  · intro x more hrest hbegins
    exact hstops x more hrest (isSecond_of_beginsChar hbegins)

theorem broken_second {width : Nat} (hw : width? a = some width) (hlong : 3 ≤ width)
    (hb : isSecond a b = true)
    (hstops : ∀ x more, rest = x :: more → isContinuation x ≠ true) : Broken [a, b] rest := by
  refine broken_cut (beginsChar_second hw (by omega) hb) ?_ ?_
  · rw [hw, List.length_singleton, ne_eq, Option.some_inj]
    omega
  · intro x more hrest hbegins
    exact hstops x more hrest (third_of_beginsChar hbegins)

theorem broken_third (hw : width? a = some 4) (hb : isSecond a b = true)
    (hc : isContinuation c = true)
    (hstops : ∀ x more, rest = x :: more → isContinuation x ≠ true) : Broken [a, b, c] rest := by
  refine broken_cut (beginsChar_third hw hb hc) ?_ ?_
  · rw [hw]
    simp
  · intro x more hrest hbegins
    exact hstops x more hrest (fourth_of_beginsChar hbegins)

theorem CharBytes.passesFor {ch : Char} (h : CharBytes bytes ch) (hrest : PassesFor rest text) :
    PassesFor (bytes ++ rest) (ch :: text) :=
  h.encode_eq ▸ .char ch hrest

theorem eq_four_of_width? {width : Nat} (hw : width? a = some width) (h1 : width ≠ 1)
    (h2 : width ≠ 2) (h3 : width ≠ 3) : width = 4 := by
  have hbounds := width?_bounds hw
  omega

/-- Every byte string passes for what is read from it. -/
theorem passesFor_decodeLossy (bytes : List UInt8) : PassesFor bytes (decodeLossy bytes) := by
  fun_induction decodeLossy bytes with
  | case1 => exact .nil
  | case2 a rest hw ih =>
    refine .broken (.stray fun hbegins => ?_) ih
    obtain ⟨width, hwidth⟩ := beginsChar_lead_iff.mp hbegins
    rw [hw] at hwidth
    cases hwidth
  | case3 a rest hw ih => exact (CharBytes.one hw).passesFor ih
  -- A first byte of two.
  | case4 a hw => exact .broken (broken_lead hw (Nat.le_refl _) (by simp)) .nil
  | case5 a hw b rest hb ih => exact (CharBytes.two hw hb).passesFor ih
  | case6 a hw b rest hb ih =>
    exact .broken (broken_lead hw (Nat.le_refl _) (by rintro _ _ ⟨⟩; exact hb)) ih
  -- A first byte of three.
  | case7 a hw => exact .broken (broken_lead hw (by omega) (by simp)) .nil
  | case8 a hw b hb => exact .broken (broken_second hw (Nat.le_refl _) hb (by simp)) .nil
  | case9 a hw b hb c rest hc ih => exact (CharBytes.three hw hb hc).passesFor ih
  | case10 a hw b hb c rest hc ih =>
    exact .broken (broken_second hw (Nat.le_refl _) hb (by rintro _ _ ⟨⟩; exact hc)) ih
  | case11 a hw b rest hb ih =>
    exact .broken (broken_lead hw (by omega) (by rintro _ _ ⟨⟩; exact hb)) ih
  -- A first byte of four.
  | case12 a width h1 h2 h3 hw =>
    obtain rfl := eq_four_of_width? hw h1 h2 h3
    exact .broken (broken_lead hw (by omega) (by simp)) .nil
  | case13 a width h1 h2 h3 hw b hb =>
    obtain rfl := eq_four_of_width? hw h1 h2 h3
    exact .broken (broken_second hw (by omega) hb (by simp)) .nil
  | case14 a width h1 h2 h3 hw b hb c hc =>
    obtain rfl := eq_four_of_width? hw h1 h2 h3
    exact .broken (broken_third hw hb hc (by simp)) .nil
  | case15 a width h1 h2 h3 hw b hb c hc d rest hd ih =>
    obtain rfl := eq_four_of_width? hw h1 h2 h3
    exact (CharBytes.four hw hb hc hd).passesFor ih
  | case16 a width h1 h2 h3 hw b hb c hc d rest hd ih =>
    obtain rfl := eq_four_of_width? hw h1 h2 h3
    exact .broken (broken_third hw hb hc (by rintro _ _ ⟨⟩; exact hd)) ih
  | case17 a width h1 h2 h3 hw b hb c rest hc ih =>
    obtain rfl := eq_four_of_width? hw h1 h2 h3
    exact .broken (broken_second hw (by omega) hb (by rintro _ _ ⟨⟩; exact hc)) ih
  | case18 a width h1 h2 h3 hw b rest hb ih =>
    obtain rfl := eq_four_of_width? hw h1 h2 h3
    exact .broken (broken_lead hw (by omega) (by rintro _ _ ⟨⟩; exact hb)) ih

/-- No character begins with another one. -/
theorem utf8EncodeChar_append_inj {ch ch' : Char} {rest' : List UInt8}
    (h : String.utf8EncodeChar ch ++ rest = String.utf8EncodeChar ch' ++ rest') :
    ch = ch' ∧ rest = rest' := by
  have hread := congrArg decodeLossy h
  rw [decodeLossy_utf8EncodeChar_append, decodeLossy_utf8EncodeChar_append] at hread
  obtain rfl := (List.cons.inj hread).1
  exact ⟨rfl, List.append_cancel_left h⟩

theorem BeginsChar.of_append {more : List UInt8} (h : BeginsChar (bytes ++ more)) :
    BeginsChar bytes := by
  obtain ⟨ch, rest, h⟩ := h
  exact ⟨ch, more ++ rest, by rw [h, List.append_assoc]⟩

namespace Broken

variable {piece piece' rest' : List UInt8}

theorem ne_nil (h : Broken piece rest) : piece ≠ [] := by
  cases h with
  | stray hnone => exact List.cons_ne_nil _ _
  | cut hpiece => exact hpiece

theorem ne_char (h : Broken piece rest) (ch : Char) : String.utf8EncodeChar ch ≠ piece := by
  cases h with
  | stray hnone => exact fun hch => hnone ⟨ch, [], hch⟩
  | cut _ _ hshort => exact hshort ch

/-- A broken piece is maximal. -/
theorem not_beginsChar_longer {x : UInt8} (h : Broken piece (x :: rest)) :
    ¬ BeginsChar (piece ++ [x]) := by
  cases h with
  | stray hnone => exact fun hbegins => hnone hbegins.of_append
  | cut _ _ _ hstops => exact hstops x rest rfl

theorem beginsChar_of_length (h : Broken piece rest) (hlong : 2 ≤ piece.length) :
    BeginsChar piece := by
  cases h with
  | stray => exact absurd hlong (by simp)
  | cut _ hbegins => exact hbegins

/-- Bytes that begin with a broken piece begin with no character. -/
theorem char_append_ne (h : Broken piece rest) (ch : Char) (more : List UInt8) :
    String.utf8EncodeChar ch ++ more ≠ piece ++ rest := by
  intro heq
  obtain ⟨x, hx, hmore⟩ | ⟨x, hx, hrest⟩ := List.append_eq_append_iff.mp heq
  · -- The piece goes on behind the character.
    cases x with
    | nil => exact h.ne_char ch (by rw [hx, List.append_nil])
    | cons y x =>
      have hlong : 2 ≤ piece.length := by
        have hlength := List.length_pos_iff.mpr (String.utf8EncodeChar_ne_nil (c := ch))
        rw [hx, List.length_append, List.length_cons]
        omega
      obtain ⟨ch', end', hch⟩ := h.beginsChar_of_length hlong
      rw [hx, List.append_assoc, ← List.append_nil (String.utf8EncodeChar ch')] at hch
      exact absurd (utf8EncodeChar_append_inj hch).2 (by simp)
  · -- The character goes on behind the piece.
    cases x with
    | nil => exact h.ne_char ch (by rw [hx, List.append_nil])
    | cons y x =>
      rw [hrest, List.cons_append] at h
      exact h.not_beginsChar_longer ⟨ch, x, by rw [hx, List.append_assoc]; rfl⟩

theorem append_nil_of_longer {x : List UInt8} (h : Broken piece (x ++ rest'))
    (h' : Broken (piece ++ x) rest') : x = [] := by
  cases x with
  | nil => rfl
  | cons y x =>
    have hlong : 2 ≤ (piece ++ y :: x).length := by
      have hlength := List.length_pos_iff.mpr h.ne_nil
      rw [List.length_append, List.length_cons]
      omega
    have hbegins : BeginsChar (piece ++ [y] ++ x) := by
      rw [List.append_assoc]
      exact h'.beginsChar_of_length hlong
    exact absurd hbegins.of_append h.not_beginsChar_longer

theorem append_inj (h : Broken piece rest) (h' : Broken piece' rest')
    (heq : piece ++ rest = piece' ++ rest') : rest = rest' := by
  obtain ⟨x, rfl, rfl⟩ | ⟨x, rfl, rfl⟩ := List.append_eq_append_iff.mp heq
  · rw [h.append_nil_of_longer h', List.nil_append]
  · rw [h'.append_nil_of_longer h, List.nil_append]

end Broken

theorem PassesFor.unique (h : PassesFor bytes text) :
    ∀ {text' : List Char}, PassesFor bytes text' → text = text' := by
  induction h with
  | nil =>
    intro text' h'
    generalize hall : [] = all at h'
    cases h' with
    | nil => rfl
    | char c => exact absurd hall.symm (by simp)
    | broken hpiece => exact absurd hall.symm (by simp [hpiece.ne_nil])
  | char c hrest ih =>
    intro text' h'
    generalize hall : String.utf8EncodeChar c ++ _ = all at h'
    cases h' with
    | nil => exact absurd hall (by simp)
    | char c' hrest' =>
      obtain ⟨rfl, rfl⟩ := utf8EncodeChar_append_inj hall
      rw [ih hrest']
    | broken hpiece hrest' => exact absurd hall (hpiece.char_append_ne c _)
  | @broken piece rest _ hpiece hrest ih =>
    intro text' h'
    generalize hall : piece ++ rest = all at h'
    cases h' with
    | nil => exact absurd hall (by simp [hpiece.ne_nil])
    | char c' hrest' => exact absurd hall.symm (hpiece.char_append_ne c' _)
    | broken hpiece' hrest' =>
      obtain rfl := hpiece.append_inj hpiece' hall
      rw [ih hrest']

theorem decodeLossy_eq_iff : decodeLossy bytes = text ↔ PassesFor bytes text := by
  constructor
  · rintro rfl
    exact passesFor_decodeLossy bytes
  · exact (passesFor_decodeLossy bytes).unique

theorem PassesFor.encode_append (text : List Char) (hrest : PassesFor rest text') :
    PassesFor (encode text ++ rest) (text ++ text') := by
  induction text with
  | nil => exact hrest
  | cons c text ih =>
    rw [encode_cons, List.append_assoc]
    exact .char c ih

theorem PassesFor.eq_encode (h : PassesFor bytes text) (hnone : replacement ∉ text) :
    bytes = encode text := by
  induction h with
  | nil => rfl
  | char c hrest ih => rw [ih (List.not_mem_of_not_mem_cons hnone), encode_cons]
  | broken => exact absurd List.mem_cons_self hnone

/-- One byte that begins no character passes for a replacement character, which is written with
three. -/
theorem passesFor_exact_iff (text : List Char) :
    (∀ bytes, PassesFor bytes text ↔ bytes = encode text) ↔ replacement ∉ text := by
  constructor
  · intro hexact hmem
    obtain ⟨front, behind, rfl⟩ := List.append_of_mem hmem
    have hstray : Broken [0xff] (encode behind) := by
      refine .stray fun hbegins => ?_
      obtain ⟨width, hwidth⟩ := beginsChar_lead_iff.mp hbegins
      cases hwidth
    have hbehind : PassesFor (encode behind) behind := by
      simpa using PassesFor.encode_append behind .nil
    have hbytes := (hexact _).mp (PassesFor.encode_append front (.broken hstray hbehind))
    rw [encode_append, encode_cons] at hbytes
    exact absurd (List.append_cancel_right (List.append_cancel_left hbytes)) (by decide)
  · intro hnone bytes
    constructor
    · exact fun h => h.eq_encode hnone
    · rintro rfl
      simpa using PassesFor.encode_append text .nil

end

end Text

open ContainerCheck.Cri ContainerCheck.Text

def Cri.Client.printing (output : ExecOutput) : Client Unit where
  answer request _ store :=
    match request with
    | .execSync .. => { value := .ok output, store := store }
    | _ => { value := .error "unavailable", store := store }
  stop _ _ _ store := { value := none, store := store }

namespace Check

theorem execText_eq_ok_iff {command : List String} {output : ExecOutput} {text : String} :
    execText command output = .ok text ↔
      output.stderr = [] ∧ PassesFor output.stdout text.toList := by
  rw [← decodeLossy_eq_iff, execText]
  split_ifs with herr
  · rw [Except.ok.injEq, ← String.toList_inj, String.toList_ofList]
    exact (and_iff_right herr).symm
  · exact iff_of_false (by simp) fun h => herr h.1

theorem runtimeResult_eq_ok_iff {α : Type} {operation : Operation} {answer : Except String α}
    {value : α} : runtimeResult operation answer = .ok value ↔ answer = .ok value := by
  cases answer <;> simp [runtimeResult]

theorem require_fst_eq_ok_iff {σ : Type} {condition : Bool} {message : String} {w : World σ} :
    (Session.require condition message w).1 = .ok () ↔ condition = true := by
  cases condition <;> simp [Session.require, Session.pure, Session.fail]

namespace Harness

variable {σ : Type} (h : Harness σ)

theorem verifyExec_fst_eq_ok_iff (id : ContainerId) (command : List String) (expected : String)
    (w : World σ) :
    (h.verifyExec id command expected w).1 = .ok () ↔
      ∃ output : ExecOutput,
        (h.client.answer (.execSync id command h.config.execSyncTimeout) w.clock w.store).value =
          .ok output ∧
        output.stderr = [] ∧ PassesFor output.stdout expected.toList := by
  have hcall (request : Request) : (h.call request w).1 =
      runtimeResult request.operation (h.client.answer request w.clock w.store).value := rfl
  simp only [verifyExec, exec, Session.bind_run_fst_eq_ok_iff, require_fst_eq_ok_iff, Session.lift,
    hcall, runtimeResult_eq_ok_iff, execText_eq_ok_iff, beq_iff_eq]
  constructor
  · rintro ⟨printed, ⟨output, hreply, herr, hreads⟩, rfl⟩
    exact ⟨output, hreply, herr, hreads⟩
  · rintro ⟨output, hreply, herr, hreads⟩
    exact ⟨expected, ⟨output, hreply, herr, hreads⟩, rfl⟩

/-- A command prints what is expected if its error stream is empty and its output passes for the
expected text. Only the bytes of that text do so if it has no replacement character, and others do
as well if it has one. -/
theorem verifyExec_passesFor (id : ContainerId) (command : List String) (expected : String)
    (w : World σ) :
    ((h.verifyExec id command expected w).1 = .ok () ↔
      ∃ output : ExecOutput,
        (h.client.answer (.execSync id command h.config.execSyncTimeout) w.clock w.store).value =
          .ok output ∧
        output.stderr = [] ∧ PassesFor output.stdout expected.toList) ∧
    ((∀ stdout, PassesFor stdout expected.toList ↔ stdout = encode expected.toList) ↔
      replacement ∉ expected.toList) :=
  ⟨h.verifyExec_fst_eq_ok_iff id command expected w, passesFor_exact_iff expected.toList⟩

/-- A byte that begins no character passes for an expected replacement character, whose own bytes
are three others. -/
theorem verifyExec_passesFor_strayByte :
    let h : Harness Unit := ⟨.printing ⟨[0xff], []⟩, {}⟩
    (h.verifyExec ⟨"ctr-1"⟩ ["x"] "\uFFFD" (World.start ⟨[], []⟩ ())).1 = .ok () ∧
      [0xff] ≠ encode "\uFFFD".toList := by
  intro h
  refine ⟨?_, by decide⟩
  rw [h.verifyExec_fst_eq_ok_iff]
  exact ⟨⟨[0xff], []⟩, rfl, rfl, decodeLossy_eq_iff.mp rfl⟩

end Harness

end Check

end ContainerCheck
