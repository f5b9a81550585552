import ContainerCheck.Proofs.Results
import ContainerCheck.Proofs.TaggedFile
import Mathlib.Data.List.DropRight

namespace ContainerCheck.Log

open ContainerCheck.Text

/-- Whether a file holds whole lines only, each with its line feed. -/
def IsWhole (content : List UInt8) : Prop := content = [] ∨ content.getLast? = some 10

instance (content : List UInt8) : Decidable (IsWhole content) :=
  inferInstanceAs (Decidable (_ ∨ _))

theorem isWhole_nil : IsWhole [] := .inl rfl

theorem isWhole_cons_iff {byte : UInt8} {rest : List UInt8} :
    IsWhole (byte :: rest) ↔ IsWhole rest ∧ (rest = [] → byte = 10) := by
  cases rest with
  | nil => simp [IsWhole]
  | cons next rest => simp [IsWhole, List.getLast?_cons_cons]

theorem IsWhole.append {a b : List UInt8} (ha : IsWhole a) (hb : IsWhole b) : IsWhole (a ++ b) := by
  rcases hb with rfl | hb
  · rwa [List.append_nil]
  · right
    rw [List.getLast?_append, hb, Option.some_or]

/-- A byte that ends no line belongs to the line behind it. -/
theorem splitLines_cons_of_ne {byte : UInt8} (h : byte ≠ 10) (rest : List UInt8) :
    splitLines (byte :: rest) =
      (byte :: (splitLines rest).head?.getD []) :: (splitLines rest).tail := by
  rw [splitLines, if_neg h]
  cases splitLines rest <;> rfl

theorem splitLines_eq_nil_iff {content : List UInt8} : splitLines content = [] ↔ content = [] := by
  cases content with
  | nil => simp
  | cons byte rest =>
    by_cases h : byte = 10
    · simp [h]
    · simp [splitLines_cons_of_ne h]

/-- The lines of what stands behind whole lines are lines of their own. -/
theorem splitLines_append {a : List UInt8} (ha : IsWhole a) (b : List UInt8) :
    splitLines (a ++ b) = splitLines a ++ splitLines b := by
  induction a with
  | nil => rfl
  | cons byte a ih =>
    obtain ⟨hrest, hlast⟩ := isWhole_cons_iff.mp ha
    by_cases hbyte : byte = 10
    · subst hbyte
      simp [ih hrest]
    · -- The line that the byte begins ends within `a`.
      have hne : splitLines a ≠ [] := by
        rw [Ne, splitLines_eq_nil_iff]
        exact fun hnil => hbyte (hlast hnil)
      obtain ⟨line, lines, hlines⟩ := List.exists_cons_of_ne_nil hne
      rw [List.cons_append, splitLines_cons_of_ne hbyte, splitLines_cons_of_ne hbyte, ih hrest,
        hlines]
      rfl

/-- A file has as many lines as line feeds, and one more if the last line lacks its own. -/
theorem length_splitLines (content : List UInt8) :
    (splitLines content).length = content.count 10 + if IsWhole content then 0 else 1 := by
  induction content with
  | nil => rfl
  | cons byte rest ih =>
    by_cases hbyte : byte = 10
    · subst hbyte
      simp [ih, isWhole_cons_iff]
      omega
    · rw [splitLines_cons_of_ne hbyte, List.count_cons_of_ne hbyte]
      cases rest with
      | nil => simp [isWhole_cons_iff, hbyte]
      | cons next rest =>
        have hpos : (splitLines (next :: rest)).length ≠ 0 := by
          rw [Ne, List.length_eq_zero_iff, splitLines_eq_nil_iff]
          exact List.cons_ne_nil next rest
        rw [List.length_cons, List.length_tail, Nat.sub_add_cancel (Nat.pos_of_ne_zero hpos), ih]
        simp [@isWhole_cons_iff byte]

theorem decodeLines_append (a b : List (List UInt8)) :
    decodeLines (a ++ b) = do
      let first ← decodeLines a
      let rest ← decodeLines b
      return first ++ rest := by
  induction a with
  | nil => cases hb : decodeLines b <;> simp [decodeLines, hb, bind, Except.bind, pure, Except.pure]
  | cons line a ih =>
    rw [List.cons_append, decodeLines, decodeLines, ih]
    cases decodeLine line with
    | error malformed => rfl
    | ok record =>
      cases decodeLines a with
      | error malformed => rfl
      | ok first =>
        cases decodeLines b with
        | error malformed => rfl
        | ok rest => rfl

/-- What stands behind whole lines is read behind them. -/
theorem readRecords_append {a : List UInt8} (ha : IsWhole a) (b : List UInt8) :
    readRecords (a ++ b) = do
      let first ← readRecords a
      let rest ← readRecords b
      return first ++ rest := by
  rw [readRecords, splitLines_append ha, decodeLines_append]
  rfl

theorem readRecords_append_eq_ok_iff {a : List UInt8} (ha : IsWhole a) {b : List UInt8}
    {records : List Record} :
    readRecords (a ++ b) = .ok records ↔ ∃ first rest, readRecords a = .ok first ∧
      readRecords b = .ok rest ∧ records = first ++ rest := by
  rw [readRecords_append ha, bind_eq_ok_iff]
  simp only [bind_eq_ok_iff]
  constructor
  · rintro ⟨first, hfirst, rest, hrest, hall⟩
    exact ⟨first, rest, hfirst, hrest, (Except.ok.inj hall).symm⟩
  · rintro ⟨first, rest, hfirst, hrest, rfl⟩
    exact ⟨first, hfirst, rest, hrest, rfl⟩

/-- A file that decodes has one record for each line. -/
theorem length_of_readRecords {content : List UInt8} {records : List Record}
    (h : readRecords content = .ok records) :
    records.length = content.count 10 + if IsWhole content then 0 else 1 :=
  (length_of_decodeLines h).trans (length_splitLines content)

def finished (content : List UInt8) : List UInt8 := content.rdropWhile (· ≠ 10)

def unfinished (content : List UInt8) : List UInt8 := content.rtakeWhile (· ≠ 10)

theorem finished_append_unfinished (content : List UInt8) :
    finished content ++ unfinished content = content := List.rdropWhile_append_rtakeWhile

theorem isWhole_finished (content : List UInt8) : IsWhole (finished content) := by
  by_cases hne : finished content = []
  · exact .inl hne
  · have hlast := List.rdropWhile_last_not (fun byte => decide (byte ≠ 10)) content hne
    right
    rw [List.getLast?_eq_some_getLast hne]
    simpa [finished] using hlast

theorem newline_not_mem_unfinished (content : List UInt8) : 10 ∉ unfinished content := by
  intro h
  have hfeed := List.mem_rtakeWhile_imp h
  simp at hfeed

theorem count_finished (content : List UInt8) :
    (finished content).count 10 = content.count 10 := by
  have hcount := congrArg (List.count 10) (finished_append_unfinished content)
  rw [List.count_append, List.count_eq_zero_of_not_mem (newline_not_mem_unfinished content)]
    at hcount
  exact hcount

/-- A line that lacks its line feed is read as it stands. -/
theorem readRecords_unfinished {line : List UInt8} (h : 10 ∉ line) (hne : line ≠ []) :
    readRecords line = (decodeLine line).map fun record => [record] := by
  rw [readRecords, splitLines_last h hne, decodeLines]
  cases decodeLine line <;> rfl

/-- What is read of a file that ends within a line: its whole lines, and then that line as it
stands. -/
theorem readRecords_cut (content : List UInt8) (hne : unfinished content ≠ []) :
    readRecords content = do
      let first ← readRecords (finished content)
      let record ← decodeLine (unfinished content)
      return first ++ [record] := by
  have hsplit := readRecords_append (isWhole_finished content) (unfinished content)
  rw [finished_append_unfinished,
    readRecords_unfinished (newline_not_mem_unfinished content) hne] at hsplit
  rw [hsplit]
  cases readRecords (finished content) with
  | error malformed => rfl
  | ok first => cases decodeLine (unfinished content) <;> rfl

theorem readLog_of_read {σ : Type} {path : String} {w : World σ} {content : List UInt8}
    (h : w.tree.read path = .ok content) :
    (Session.readLog path w).1 = contentRecords content := by
  change recordsOf path (w.tree.read path) = _
  rw [h]
  rfl

theorem concat_prefix_iff {α : Type} {first later : List α} {last : α} :
    first ++ [last] <+: first ++ later ↔ (first ++ later)[first.length]? = some last := by
  rw [List.prefix_append_right_inj, List.getElem?_append_right (Nat.le_refl _), Nat.sub_self]
  cases later with
  | nil => simp
  | cons next later => simp [eq_comm]

/-- What is read while a log is being written. Its whole lines are read as they will be at the end.
The line behind them is read as it stands, so that all depends on whether it decodes and whether it
still decodes to the same record when it is complete. -/
theorem readLog_cut {σ : Type} {content cut : List UInt8} {records : List Record}
    (hread : readRecords content = .ok records) (hcut : cut <+: content) {path : String}
    {w : World σ} (hfile : w.tree.read path = .ok cut) :
    ((∃ seen, (Session.readLog path w).1 = .ok seen ∧ seen <+: records) ↔
      unfinished cut = [] ∨ ∃ record,
        decodeLine (unfinished cut) = .ok record ∧ records[cut.count 10]? = some record) ∧
    (unfinished cut ≠ [] →
      (Session.readLog path w).1 =
        match decodeLine (unfinished cut) with
        | .ok record => .ok (records.take (cut.count 10) ++ [record])
        | .error malformed => .error (.ofMalformed malformed)) := by
  obtain ⟨rest, rfl⟩ := hcut
  have hwhole := isWhole_finished cut
  have hsplit : cut ++ rest = finished cut ++ (unfinished cut ++ rest) := by
    rw [← List.append_assoc, finished_append_unfinished]
  rw [hsplit] at hread
  obtain ⟨first, later, hfirst, -, rfl⟩ := (readRecords_append_eq_ok_iff hwhole).mp hread
  have hlength : cut.count 10 = first.length := by
    rw [length_of_readRecords hfirst, if_pos hwhole, count_finished, Nat.add_zero]
  rw [readLog_of_read hfile, hlength, List.take_left]
  by_cases hne : unfinished cut = []
  · have hall : readRecords cut = .ok first := by
      rw [← finished_append_unfinished cut, hne, List.append_nil, hfirst]
    refine ⟨iff_of_true ⟨first, ?_, List.prefix_append _ _⟩ (.inl hne), fun h => absurd hne h⟩
    rw [contentRecords, hall]
  · have hall := readRecords_cut cut hne
    rw [hfirst] at hall
    rw [contentRecords, hall]
    cases decodeLine (unfinished cut) with
    | error malformed => simp [hne, bind, Except.bind]
    | ok record =>
      refine ⟨?_, fun _ => rfl⟩
      simp only [← concat_prefix_iff]
      constructor
      · rintro ⟨seen, hseen, hprefix⟩
        cases hseen
        exact .inr ⟨record, rfl, hprefix⟩
      · rintro (hnil | ⟨same, hsame, hprefix⟩)
        · exact absurd hnil hne
        · cases hsame
          exact ⟨_, rfl, hprefix⟩

def helloLog : List UInt8 := encode "2016-10-06T00:17:09Z stdout F hello\n".toList

def helloRecord : Record := ⟨⟨1475713029, 0⟩, .stdout, "hello\n"⟩

def worldWithLog (content : List UInt8) : World Unit :=
  World.start ⟨[(["a.log"], .file content)], []⟩ ()

theorem read_worldWithLog (content : List UInt8) :
    (worldWithLog content).tree.read "a.log" = .ok content :=
  rfl

/-- The log is read whole, cut in its timestamp, in its content, and before its line feed. -/
theorem helloLog_cuts :
    (readRecords helloLog).toOption = some [helloRecord] ∧
      (contentRecords (helloLog.take 10)).toOption = none ∧
      (contentRecords (helloLog.take 32)).toOption = some [{ helloRecord with payload := "he\n" }] ∧
      unfinished (helloLog.take 35) ≠ [] ∧
      (decodeLine (unfinished (helloLog.take 35))).toOption = some helloRecord := by
  decide +kernel

theorem readRecords_helloLog : readRecords helloLog = .ok [helloRecord] :=
  eq_ok_of_toOption helloLog_cuts.1

/-- A line that lacks nothing but its line feed is read as it will be. -/
theorem readLog_cut_beforeFeed :
    helloLog.take 35 <+: helloLog ∧ unfinished (helloLog.take 35) ≠ [] ∧
      ∃ seen, (Session.readLog "a.log" (worldWithLog (helloLog.take 35))).1 = .ok seen ∧
        seen <+: [helloRecord] := by
  have hcut := List.take_prefix 35 helloLog
  obtain ⟨-, -, -, hunfinished, hlast⟩ := helloLog_cuts
  have hline : decodeLine (unfinished (helloLog.take 35)) = .ok helloRecord :=
    eq_ok_of_toOption hlast
  refine ⟨hcut, hunfinished, ?_⟩
  exact (readLog_cut readRecords_helloLog hcut (read_worldWithLog _)).1.mpr
    (.inr ⟨helloRecord, hline, rfl⟩)

/-- A line that is cut in its timestamp is a failure, and one that is cut in its content is read as
another record than the one that it becomes. -/
theorem readLog_halfWritten :
    readRecords helloLog = .ok [helloRecord] ∧
      helloLog.take 10 <+: helloLog ∧
      (¬ ∃ seen, (Session.readLog "a.log" (worldWithLog (helloLog.take 10))).1 = .ok seen) ∧
      helloLog.take 32 <+: helloLog ∧
      ∃ seen, (Session.readLog "a.log" (worldWithLog (helloLog.take 32))).1 = .ok seen ∧
        ¬ seen <+: [helloRecord] := by
  obtain ⟨-, hfails, hreads, -⟩ := helloLog_cuts
  rw [readLog_of_read (read_worldWithLog _), readLog_of_read (read_worldWithLog _)]
  refine ⟨readRecords_helloLog, List.take_prefix _ _, ?_, List.take_prefix _ _,
    _, eq_ok_of_toOption hreads, by decide⟩
  rintro ⟨seen, hseen⟩
  rw [hseen] at hfails
  cases hfails

end ContainerCheck.Log
