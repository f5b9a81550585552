import ContainerCheck.Proofs.Polling

namespace ContainerCheck.Poll

section

variable {ε α S : Type}

/-- What a hold makes of the end of a wait for the opposite that has lasted so long. -/
def opposite (late : Nat) : Except (PollError ε α) α → Except (HoldError ε α) α
  | .ok value => .error (.broken value late)
  | .error (.timeout last _) => .ok last
  | .error (.probe error) => .error (.probe error)
  | .error .endless => .error .endless

def asHold [Clock S] (start : Nat) (wait : Except (PollError ε α) α × S) :
    Except (HoldError ε α) α × S :=
  (opposite (Clock.now wait.2 - start) wait.1, wait.2)

/-- A hold ends at the probes at which a wait for the opposite ends, and pauses as long. -/
theorem afterCheck_eq (accept : α → Bool) (interval window late : Nat) (seen : Except ε α) :
    afterCheck accept interval window late seen =
      match afterProbe (fun value => !accept value) interval window late seen with
      | .done result => .done (opposite late result)
      | .pause span => .pause span := by
  cases seen with
  | error error => rfl
  | ok value =>
    simp only [afterCheck, afterProbe]
    by_cases haccept : accept value = true
    · by_cases hlate : window ≤ late <;> simp [haccept, hlate, opposite]
    · simp [haccept, opposite]

theorem opposite_eq_ok_iff {late : Nat} {result : Except (PollError ε α) α} {value : α} :
    opposite late result = .ok value ↔ ∃ waited, result = .error (.timeout value waited) := by
  rcases result with (⟨last, waited⟩ | error | _) | accepted <;> simp [opposite]

theorem opposite_eq_broken_iff {late span : Nat} {result : Except (PollError ε α) α} {value : α} :
    opposite late result = .error (.broken value span) ↔ result = .ok value ∧ span = late := by
  rcases result with (⟨last, waited⟩ | error | _) | accepted <;> simp [opposite, eq_comm]

theorem opposite_eq_probe_iff {late : Nat} {result : Except (PollError ε α) α} {error : ε} :
    opposite late result = .error (.probe error) ↔ result = .error (.probe error) := by
  rcases result with (⟨last, waited⟩ | error | _) | accepted <;> simp [opposite]

theorem opposite_eq_endless_iff {late : Nat} {result : Except (PollError ε α) α} :
    opposite late result = .error .endless ↔ result = .error .endless := by
  rcases result with (⟨last, waited⟩ | error | _) | accepted <;> simp [opposite]

section

variable [Clock S] (probe : S → Except ε α × S) (accept : α → Bool) (interval window : Nat)

theorem holdFrom_eq (start rounds : Nat) (s : S) :
    holdFrom probe accept interval window start rounds s =
      asHold start
        (pollFrom probe (fun value => !accept value) interval window start rounds s) := by
  -- Both loops take the same step, so they are in the same state before each round.
  induction rounds generalizing s with
  | zero => rfl
  | succ rounds ih =>
    simp only [holdFrom, pollFrom, afterCheck_eq]
    cases afterProbe (fun value => !accept value) interval window
        (Clock.now (probe s).2 - start) (probe s).1 with
    | done result => rfl
    | pause span => exact ih (Clock.sleep span (probe s).2)

/-- A hold is a wait for the opposite, read the other way round. -/
theorem holdSteady_eq (s : S) :
    holdSteady probe accept interval window s =
      asHold (Clock.now s) (pollUntil probe (fun value => !accept value) interval window s) :=
  holdFrom_eq probe accept interval window (Clock.now s) (window + patience) s

end

/-- A state with the probes made so far, the latest first: when each began and what it saw. -/
structure Recorded (ε α S : Type) where
  state : S
  probes : List (Nat × Except ε α)

instance [Clock S] : Clock (Recorded ε α S) where
  now r := Clock.now r.state
  sleep span r := { r with state := Clock.sleep span r.state }

variable [Clock S]

def recorded (probe : S → Except ε α × S) (r : Recorded ε α S) : Except ε α × Recorded ε α S :=
  let (seen, s) := probe r.state
  (seen, ⟨s, (Clock.now r.state, seen) :: r.probes⟩)

theorem now_recorded (r : Recorded ε α S) : Clock.now r = Clock.now r.state := rfl

/-- Recording the probes of a wait changes nothing else. -/
theorem pollFrom_recorded (probe : S → Except ε α × S) (accept : α → Bool)
    (interval timeout start rounds : Nat) (r : Recorded ε α S) :
    ∃ probes, pollFrom (recorded probe) accept interval timeout start rounds r =
      ((pollFrom probe accept interval timeout start rounds r.state).1,
        ⟨(pollFrom probe accept interval timeout start rounds r.state).2, probes⟩) := by
  induction rounds generalizing r with
  | zero => exact ⟨r.probes, rfl⟩
  | succ rounds ih =>
    simp only [pollFrom, recorded, now_recorded]
    cases afterProbe accept interval timeout (Clock.now (probe r.state).2 - start)
        (probe r.state).1 with
    | done result => exact ⟨_, rfl⟩
    | pause span => exact ih (Clock.sleep span (recorded probe r).2)

theorem pollUntil_recorded (probe : S → Except ε α × S) (accept : α → Bool)
    (interval timeout : Nat) (s : S) :
    ∃ probes, pollUntil (recorded probe) accept interval timeout ⟨s, []⟩ =
      ((pollUntil probe accept interval timeout s).1,
        ⟨(pollUntil probe accept interval timeout s).2, probes⟩) := by
  unfold pollUntil
  exact pollFrom_recorded probe accept interval timeout (Clock.now s) (timeout + patience) ⟨s, []⟩

theorem asHold_of_ok {start : Nat} {wait : Except (PollError ε α) α × S} {value : α}
    (h : wait.1 = .ok value) :
    (asHold start wait).1 = .error (.broken value (Clock.now wait.2 - start)) := by
  rw [asHold, h]
  rfl

theorem asHold_recorded (start : Nat) (wait : Except (PollError ε α) α × S)
    (probes : List (Nat × Except ε α)) :
    asHold start ((wait.1, ⟨wait.2, probes⟩) : _ × Recorded ε α S) =
      ((asHold start wait).1, ⟨(asHold start wait).2, probes⟩) := rfl

/-- Whether a hold and a wait for the opposite make the same probes at the same times. Recording
their probes changes nothing else. -/
def SameProbes (probe : S → Except ε α × S) (accept : α → Bool)
    (interval window : Nat) (s : S) : Prop :=
  ∃ probes,
    holdSteady (recorded probe) accept interval window ⟨s, []⟩ =
      ((holdSteady probe accept interval window s).1,
        ⟨(holdSteady probe accept interval window s).2, probes⟩) ∧
    pollUntil (recorded probe) (fun value => !accept value) interval window ⟨s, []⟩ =
      ((pollUntil probe (fun value => !accept value) interval window s).1,
        ⟨(pollUntil probe (fun value => !accept value) interval window s).2, probes⟩)

theorem sameProbes (probe : S → Except ε α × S) (accept : α → Bool)
    (interval window : Nat) (s : S) : SameProbes probe accept interval window s := by
  obtain ⟨probes, hwait⟩ :=
    pollUntil_recorded probe (fun value => !accept value) interval window s
  refine ⟨probes, ?_, hwait⟩
  rw [holdSteady_eq, holdSteady_eq, hwait]
  exact asHold_recorded (Clock.now s) _ probes

/-- A wait that ends with a probe has made progress until then. -/
theorem Ends.ne_endless {probe : S → Except ε α × S} {accept : α → Bool}
    {interval timeout start n : Nat} {s : S} {outcome : Except (PollError ε α) α × S}
    (hn : Ends probe accept interval timeout start s n outcome) :
    outcome.1 ≠ .error .endless := by
  intro hendless
  have hverdict := hn.verdict
  rw [hendless] at hverdict
  generalize seen probe interval timeout start s n = sight at hverdict
  cases hverdict

/-- A wait whose probes do not turn back the clock ends with one of them. -/
theorem pollUntil_ends [LawfulClock S] {probe : S → Except ε α × S}
    (hp : ∀ s, Clock.now s ≤ Clock.now (probe s).2) {interval : Nat} (hi : 0 < interval)
    (accept : α → Bool) (timeout : Nat) (s : S) :
    ∃ n, Ends probe accept interval timeout (Clock.now s) s n
      (pollUntil probe accept interval timeout s) :=
  pollFrom_ends hp hi accept (timeout + patience) s (Nat.le_refl _) (Nat.le_add_right _ timeout)
    (by unfold patience; omega)

end

/-- What a hold and a wait for the opposite, begun at the same time, have in common. -/
structure Opposed {α S : Type} [Clock S] (condition : String) (describe : α → String) (start : Nat)
    (hold : Except (HoldError Error α) α × S) (wait : Except (PollError Error α) α × S) : Prop where
  state : hold.2 = wait.2
  held : ∀ value, hold.1 = .ok value ↔ ∃ late, wait.1 = .error (.timeout value late)
  broken : ∀ value, (∃ span, hold.1 = .error (.broken value span)) ↔ wait.1 = .ok value
  failed : ∀ error, hold.1 = .error (.probe error) ↔ wait.1 = .error (.probe error)
  finite : hold.1 ≠ .error .endless ∧ wait.1 ≠ .error .endless
  /-- What the hold reports, by the end of the wait. -/
  reported : hold.1.mapError (HoldError.toError condition describe) =
    match wait.1 with
    | .ok value => .error (.assertion (condition ++ " stopped holding after " ++
        Time.spanText (Clock.now wait.2 - start) ++ ": observed " ++ describe value))
    | .error (.timeout last _) => .ok last
    | .error (.probe error) => .error error
    | .error .endless => .error (.endless condition)

theorem opposed_asHold {α S : Type} [Clock S] (condition : String) (describe : α → String)
    (start : Nat) (wait : Except (PollError Error α) α × S) (hfinite : wait.1 ≠ .error .endless) :
    Opposed condition describe start (asHold start wait) wait where
  state := rfl
  held value := opposite_eq_ok_iff
  broken value := by simp [asHold, opposite_eq_broken_iff]
  failed error := opposite_eq_probe_iff
  finite := ⟨fun h => hfinite (opposite_eq_endless_iff.mp h), hfinite⟩
  reported := by
    rcases wait with ⟨(⟨last, late⟩ | error | _) | value, s⟩ <;> rfl

/-- A hold and a wait for the opposite make the same probes at the same times and end together. The
hold succeeds if the wait is timed out, fails its assertion if the wait succeeds, and fails with the
probe if the wait does. -/
theorem holdSteady_opposed {α S : Type} [Clock S] [LawfulClock S] (condition : String)
    (describe : α → String) (probe : S → Except Error α × S) (accept : α → Bool) {interval : Nat}
    (window : Nat) (s : S) (hp : ∀ s, Clock.now s ≤ Clock.now (probe s).2) (hi : 0 < interval) :
    SameProbes probe accept interval window s ∧
      Opposed condition describe (Clock.now s) (holdSteady probe accept interval window s)
        (pollUntil probe (fun value => !accept value) interval window s) := by
  refine ⟨sameProbes probe accept interval window s, ?_⟩
  obtain ⟨n, hn⟩ := pollUntil_ends hp hi (fun value => !accept value) window s
  rw [holdSteady_eq]
  exact opposed_asHold condition describe (Clock.now s) _ hn.ne_endless

def lateProbe (w : World Unit) : Except Error Nat × World Unit := (.ok (w.clock + 3), w.elapse 3)

theorem now_lateProbe (w : World Unit) : Clock.now w ≤ Clock.now (lateProbe w).2 :=
  Nat.le_add_right w.clock 3

/-- The second of two slow probes begins at the end of the window and breaks the hold. -/
theorem holdSteady_opposed_lateProbe :
    (∀ w, Clock.now w ≤ Clock.now (lateProbe w).2) ∧ 0 < 2 ∧
      (SameProbes lateProbe (fun t => t < 4) 2 4 (World.start ⟨[], []⟩ ()) ∧
        Opposed "early" toString 0 (holdSteady lateProbe (fun t => t < 4) 2 4
          (World.start ⟨[], []⟩ ())) (pollUntil lateProbe (fun t => !decide (t < 4)) 2 4
          (World.start ⟨[], []⟩ ()))) ∧
      (holdSteady lateProbe (fun t => t < 4) 2 4 (World.start ⟨[], []⟩ ())).1 =
        .error (.broken 7 7) :=
  ⟨now_lateProbe, by decide,
    holdSteady_opposed "early" toString lateProbe (fun t => t < 4) 4 _ now_lateProbe (by decide),
    rfl⟩

section

variable {ε α S : Type} [Clock S]

def SeesAtEnd (state : Nat → α) (probe : S → Except ε α × S) : Prop :=
  ∀ s, (probe s).1 = .ok (state (Clock.now (probe s).2))

variable [LawfulClock S] {state : Nat → α} {probe : S → Except ε α × S} {accept : α → Bool}
variable {interval limit since n : Nat} {s : S} {outcome : Except (PollError ε α) α × S}

/-- A wait for what will last accepts it, since its last probe ends at the deadline or later. -/
theorem Ends.ok_of_lasting (hn : Ends probe accept interval limit (Clock.now s) s n outcome)
    (hp : ∀ s, Clock.now s ≤ Clock.now (probe s).2) (hi : 0 < interval)
    (hstate : SeesAtEnd state probe) (hsince : since ≤ Clock.now s + limit)
    (hlasts : ∀ t, since ≤ t → accept (state t) = true) : ∃ value, outcome.1 = .ok value := by
  have hseen : seen probe interval limit (Clock.now s) s n =
      .ok (state (Clock.now (probeEnd probe interval limit (Clock.now s) s n))) := hstate _
  have hbegun := (now_probeStart hp hi hn (Nat.le_refl n)).1
  have hended := hp (probeStart probe interval limit (Clock.now s) s n)
  have hverdict := hn.verdict
  rw [hseen] at hverdict
  cases hresult : outcome.1 with
  | ok value => exact ⟨value, rfl⟩
  | error error =>
    rw [hresult] at hverdict
    cases hverdict with
    | timedOut _ hrejected hlate =>
      have hpast : since ≤ Clock.now (probeEnd probe interval limit (Clock.now s) s n) := by
        simp only [waited, probeEnd] at hlate ⊢
        omega
      rw [hlasts _ hpast] at hrejected
      cases hrejected

omit [LawfulClock S] in
/-- A probe that is rejected ends before what will last begins. -/
theorem Ends.before_lasting (hn : Ends probe accept interval limit (Clock.now s) s n outcome)
    (hstate : SeesAtEnd state probe) (hlasts : ∀ t, since ≤ t → accept (state t) = true) {k : Nat}
    (hk : k < n) : Clock.now (probeEnd probe interval limit (Clock.now s) s k) < since := by
  obtain ⟨value, hseen, hrejected⟩ := hn.rejected k hk
  by_contra hlate
  have hsame : value = state (Clock.now (probeEnd probe interval limit (Clock.now s) s k)) :=
    Except.ok.inj (hseen.symm.trans (hstate _))
  rw [hsame, hlasts _ (Nat.le_of_not_lt hlate)] at hrejected
  cases hrejected

/-- A wait for what will last ends with its first probe or soon after it has begun to last. -/
theorem Ends.soon_of_lasting (hn : Ends probe accept interval limit (Clock.now s) s n outcome)
    (hp : ∀ s, Clock.now s ≤ Clock.now (probe s).2) (hstate : SeesAtEnd state probe)
    (hlasts : ∀ t, since ≤ t → accept (state t) = true) :
    Clock.now outcome.2 ≤ max (Clock.now (probe s).2)
      (since + interval + probeTime probe interval limit (Clock.now s) s n) := by
  rw [hn.state]
  cases n with
  | zero => exact Nat.le_max_left _ _
  | succ k =>
    have hbefore := hn.before_lasting hstate hlasts (Nat.lt_succ_self k)
    have hpause : Clock.now (probeStart probe interval limit (Clock.now s) s (k + 1)) ≤
        Clock.now (probeEnd probe interval limit (Clock.now s) s k) + interval := by
      rw [probeStart_succ, round, LawfulClock.now_sleep, probeEnd]
      omega
    have hended := hp (probeStart probe interval limit (Clock.now s) s (k + 1))
    apply Nat.le_trans _ (Nat.le_max_right _ _)
    simp only [probeTime, probeEnd] at hbefore hpause ⊢
    omega

end

/-- No loop misses a change that lasts and that comes before its time is over. A wait for what will
last sees it, with its first probe or within a pause and a probe, and a hold of what will not last
fails its assertion. -/
theorem loops_seeLastingChange {α S : Type} [Clock S] [LawfulClock S] (condition : String)
    (describe : α → String) (state : Nat → α) (probe : S → Except Error α × S) (accept : α → Bool)
    {interval : Nat} (limit since : Nat) (s : S) (hp : ∀ s, Clock.now s ≤ Clock.now (probe s).2)
    (hi : 0 < interval) (hstate : SeesAtEnd state probe) (hsince : since ≤ Clock.now s + limit) :
    ((∀ t, since ≤ t → accept (state t) = true) →
      ∃ n, Ends probe accept interval limit (Clock.now s) s n
          (pollUntil probe accept interval limit s) ∧
        (∃ value, (pollUntil probe accept interval limit s).1 = .ok value) ∧
        Clock.now (pollUntil probe accept interval limit s).2 ≤ max (Clock.now (probe s).2)
          (since + interval + probeTime probe interval limit (Clock.now s) s n)) ∧
    ((∀ t, since ≤ t → accept (state t) = false) →
      ∃ value span,
        (holdSteady probe accept interval limit s).1 = .error (.broken value span) ∧
        ∃ message, (holdSteady probe accept interval limit s).1.mapError
          (HoldError.toError condition describe) = .error (.assertion message)) := by
  constructor
  · intro hlasts
    obtain ⟨n, hn⟩ := pollUntil_ends hp hi accept limit s
    exact ⟨n, hn, hn.ok_of_lasting hp hi hstate hsince hlasts, hn.soon_of_lasting hp hstate hlasts⟩
  · intro hlasts
    -- The hold is a wait for the opposite, which will last.
    have hopposite : ∀ t, since ≤ t → (!accept (state t)) = true := by
      intro t ht
      rw [hlasts t ht, Bool.not_false]
    obtain ⟨n, hn⟩ := pollUntil_ends hp hi (fun value => !accept value) limit s
    obtain ⟨value, hvalue⟩ := hn.ok_of_lasting hp hi hstate hsince hopposite
    rw [holdSteady_eq, asHold_of_ok hvalue]
    exact ⟨value, _, rfl, _, rfl⟩

/-- A change at the deadline is seen by the last probe, whatever is awaited. -/
theorem loops_seeLastingChange_lateProbe :
    (∀ w, Clock.now w ≤ Clock.now (lateProbe w).2) ∧ 0 < 2 ∧ SeesAtEnd id lateProbe ∧
      4 ≤ Clock.now (World.start ⟨[], []⟩ ()) + 4 ∧
      (∀ t, 4 ≤ t → decide (4 ≤ id t) = true) ∧
      (∃ n, Ends lateProbe (fun t => 4 ≤ t) 2 4 0 (World.start ⟨[], []⟩ ()) n
          (pollUntil lateProbe (fun t => 4 ≤ t) 2 4 (World.start ⟨[], []⟩ ())) ∧
        (∃ value, (pollUntil lateProbe (fun t => 4 ≤ t) 2 4 (World.start ⟨[], []⟩ ())).1 =
          .ok value) ∧
        (pollUntil lateProbe (fun t => 4 ≤ t) 2 4 (World.start ⟨[], []⟩ ())).2.clock ≤
          max 3 (4 + 2 + probeTime lateProbe 2 4 0 (World.start ⟨[], []⟩ ()) n)) ∧
      (∀ t, 4 ≤ t → decide (id t < 4) = false) ∧
      ∃ value span, (holdSteady lateProbe (fun t => t < 4) 2 4 (World.start ⟨[], []⟩ ())).1 =
          .error (.broken value span) ∧
        ∃ message, (holdSteady lateProbe (fun t => t < 4) 2 4
          (World.start ⟨[], []⟩ ())).1.mapError (HoldError.toError "early" toString) =
            .error (.assertion message) := by
  have hi : 0 < 2 := by decide
  have hstate : SeesAtEnd id lateProbe := fun w => rfl
  have hsince : 4 ≤ Clock.now (World.start ⟨[], []⟩ ()) + 4 := by decide
  have hpast : ∀ t, 4 ≤ t → decide (4 ≤ id t) = true := by simp
  have hover : ∀ t, 4 ≤ t → decide (id t < 4) = false := by simp
  exact ⟨now_lateProbe, hi, hstate, hsince, hpast,
    (loops_seeLastingChange "late" toString id lateProbe (fun t => 4 ≤ t) 4 4 _ now_lateProbe hi
      hstate hsince).1 hpast, hover,
    (loops_seeLastingChange "early" toString id lateProbe (fun t => t < 4) 4 4 _ now_lateProbe hi
      hstate hsince).2 hover⟩

end ContainerCheck.Poll
