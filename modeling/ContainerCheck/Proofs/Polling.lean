import ContainerCheck.Poll
import Mathlib.Logic.Function.Iterate

namespace ContainerCheck.Poll

/-- A clock that a sleep moves by its length. -/
class LawfulClock (S : Type) [Clock S] : Prop where
  now_sleep (span : Nat) (s : S) : Clock.now (Clock.sleep span s) = Clock.now s + span

instance (σ : Type) : LawfulClock (World σ) where
  now_sleep span w := World.clock_sleep w span

section

variable {ε α S : Type} [Clock S]
variable (probe : S → Except ε α × S) (accept : α → Bool) (interval timeout start : Nat)

def round (s : S) : S :=
  Clock.sleep (min interval (timeout - (Clock.now (probe s).2 - start))) (probe s).2

/-- Where probe number `k` starts, counted from zero, if no probe before it ends the wait. -/
def probeStart (s : S) (k : Nat) : S := (round probe interval timeout start)^[k] s

def probeEnd (s : S) (k : Nat) : S := (probe (probeStart probe interval timeout start s k)).2

def seen (s : S) (k : Nat) : Except ε α := (probe (probeStart probe interval timeout start s k)).1

def waited (s : S) (k : Nat) : Nat :=
  Clock.now (probeEnd probe interval timeout start s k) - start

def probeTime (s : S) (k : Nat) : Nat :=
  Clock.now (probeEnd probe interval timeout start s k) -
    Clock.now (probeStart probe interval timeout start s k)

/-- What the wait makes of a last probe that saw something after so much time. -/
inductive Verdict (late : Nat) : Except ε α → Except (PollError ε α) α → Prop
  | failed (error : ε) : Verdict late (.error error) (.error (.probe error))
  | accepted (value : α) (h : accept value = true) : Verdict late (.ok value) (.ok value)
  | timedOut (value : α) (h : accept value = false) (ht : timeout ≤ late) :
    Verdict late (.ok value) (.error (.timeout value late))

/-- A wait that goes on after every probe before number `n`, and ends with that one. -/
structure Ends (s : S) (n : Nat) (outcome : Except (PollError ε α) α × S) : Prop where
  state : outcome.2 = probeEnd probe interval timeout start s n
  verdict : Verdict accept timeout (waited probe interval timeout start s n)
    (seen probe interval timeout start s n) outcome.1
  rejected : ∀ k < n, ∃ value,
    seen probe interval timeout start s k = .ok value ∧ accept value = false
  inTime : ∀ k < n, waited probe interval timeout start s k < timeout

@[simp] theorem probeStart_zero (s : S) : probeStart probe interval timeout start s 0 = s := rfl

theorem probeStart_succ (s : S) (k : Nat) :
    probeStart probe interval timeout start s (k + 1) =
      round probe interval timeout start (probeStart probe interval timeout start s k) :=
  Function.iterate_succ_apply' _ _ _

variable {probe accept interval timeout start}

/-- A wait whose first probe does not end it goes on as the wait that begins one round later. -/
theorem Ends.succ {s : S} {n : Nat} {outcome : Except (PollError ε α) α × S} {value : α}
    (hseen : (probe s).1 = .ok value) (hrejected : accept value = false)
    (hlate : Clock.now (probe s).2 - start < timeout)
    (h : Ends probe accept interval timeout start (round probe interval timeout start s) n
      outcome) :
    Ends probe accept interval timeout start s (n + 1) outcome where
  state := h.state
  verdict := h.verdict
  rejected k hk := by
    cases k with
    | zero => exact ⟨value, hseen, hrejected⟩
    | succ k => exact h.rejected k (by omega)
  inTime k hk := by
    cases k with
    | zero => exact hlate
    | succ k => exact h.inTime k (by omega)

/-- A probe that ends the wait. -/
theorem Ends.zero {s : S} {result : Except (PollError ε α) α}
    (h : Verdict accept timeout (Clock.now (probe s).2 - start) (probe s).1 result) :
    Ends probe accept interval timeout start s 0 (result, (probe s).2) where
  state := rfl
  verdict := h
  rejected k hk := by omega
  inTime k hk := by omega

/-- A timeout carries the time that the wait has lasted when its last probe ends. -/
theorem Ends.timeout_eq {s : S} {n : Nat} {outcome : Except (PollError ε α) α × S}
    (hn : Ends probe accept interval timeout start s n outcome) {last : α} {late : Nat}
    (h : outcome.1 = .error (.timeout last late)) :
    late = waited probe interval timeout start s n ∧ timeout ≤ late := by
  have hv := hn.verdict
  rw [h] at hv
  generalize seen probe interval timeout start s n = sight at hv
  cases hv with
  | timedOut _ _ ht => exact ⟨rfl, ht⟩

theorem Ends.eq_of_first {s : S} {n : Nat} {outcome : Except (PollError ε α) α × S}
    (hn : Ends probe accept interval timeout start s n outcome) {value : α}
    (hseen : (probe s).1 = .ok value) (haccept : accept value = true) :
    outcome = (.ok value, (probe s).2) := by
  have hzero : n = 0 := by
    -- A wait that goes on has rejected its first probe.
    by_contra hpos
    obtain ⟨rejected, hrejected, hfalse⟩ := hn.rejected 0 (Nat.pos_of_ne_zero hpos)
    have heq : value = rejected := Except.ok.inj (hseen.symm.trans hrejected)
    rw [heq, hfalse] at haccept
    cases haccept
  subst hzero
  have hv := hn.verdict
  rw [seen, probeStart_zero, hseen] at hv
  apply Prod.ext _ hn.state
  generalize outcome.1 = result at hv
  cases hv with
  | accepted _ _ => rfl
  | timedOut _ hfalse _ =>
    rw [hfalse] at haccept
    cases haccept

theorem verdict_of_done {late : Nat} {seen : Except ε α} {result : Except (PollError ε α) α}
    (h : afterProbe accept interval timeout late seen = .done result) :
    Verdict accept timeout late seen result := by
  cases seen with
  | error error =>
    cases h
    exact .failed error
  | ok value =>
    simp only [afterProbe] at h
    split at h
    · next ha =>
      cases h
      exact .accepted value ha
    · next ha =>
      split at h
      · next ht =>
        cases h
        exact .timedOut value (Bool.eq_false_iff.mpr ha) ht
      · cases h

theorem rejected_of_pause {late span : Nat} {seen : Except ε α}
    (h : afterProbe accept interval timeout late seen = .pause span) :
    (∃ value, seen = .ok value ∧ accept value = false) ∧ late < timeout ∧
      span = min interval (timeout - late) := by
  cases seen with
  | error error => cases h
  | ok value =>
    simp only [afterProbe] at h
    split at h
    · cases h
    · next ha =>
      split at h
      · cases h
      · next ht =>
        cases h
        exact ⟨⟨value, rfl, Bool.eq_false_iff.mpr ha⟩, Nat.lt_of_not_ge ht, rfl⟩

variable [LawfulClock S] (hp : ∀ s, Clock.now s ≤ Clock.now (probe s).2) (hi : 0 < interval)
include hp hi

/-- A round that does not end the wait takes time, but not beyond the timeout. -/
theorem now_round {s : S} (hs : start ≤ Clock.now s)
    (hlate : Clock.now (probe s).2 - start < timeout) :
    Clock.now s < Clock.now (round probe interval timeout start s) ∧
      Clock.now (round probe interval timeout start s) ≤ start + timeout := by
  have h := hp s
  rw [round, LawfulClock.now_sleep]
  omega

/-- The bound on the rounds is never reached, as each of them takes time. -/
theorem pollFrom_ends (accept : α → Bool) (rounds : Nat) (s : S) (hs : start ≤ Clock.now s)
    (ht : Clock.now s ≤ start + timeout) (hr : start + timeout < Clock.now s + rounds) :
    ∃ n, Ends probe accept interval timeout start s n
      (pollFrom probe accept interval timeout start rounds s) := by
  -- The rounds that are left outnumber the time that is left, and a round takes some of both.
  induction rounds generalizing s with
  | zero => omega
  | succ rounds ih =>
    simp only [pollFrom]
    split
    · next result hdone => exact ⟨0, .zero (verdict_of_done hdone)⟩
    · next span hpause =>
      obtain ⟨⟨value, hseen, hrejected⟩, hlate, rfl⟩ := rejected_of_pause hpause
      obtain ⟨hlater, hbound⟩ := now_round hp hi hs hlate
      obtain ⟨n, hn⟩ := ih (round probe interval timeout start s) (by omega) hbound (by omega)
      exact ⟨n + 1, hn.succ hseen hrejected hlate⟩

/-- No probe starts before the wait or later than its timeout. -/
theorem now_probeStart {s : S} {n : Nat} {outcome : Except (PollError ε α) α × S}
    (hn : Ends probe accept interval timeout (Clock.now s) s n outcome) {k : Nat} (hk : k ≤ n) :
    Clock.now s ≤ Clock.now (probeStart probe interval timeout (Clock.now s) s k) ∧
      Clock.now (probeStart probe interval timeout (Clock.now s) s k) ≤ Clock.now s + timeout := by
  induction k with
  | zero => exact ⟨Nat.le_refl _, Nat.le_add_right _ _⟩
  | succ k ih =>
    have hstart := (ih (by omega)).1
    have h := now_round hp hi hstart (hn.inTime k (by omega))
    rw [probeStart_succ]
    exact ⟨Nat.le_trans hstart (Nat.le_of_lt h.1), h.2⟩

omit hi in
/-- Probes that take no time start at the multiples of the interval, the last one at the timeout
if that comes first. -/
theorem now_probeStart_of_instant {s : S} {n : Nat} {outcome : Except (PollError ε α) α × S}
    (hn : Ends probe accept interval timeout (Clock.now s) s n outcome)
    (hinstant : ∀ k ≤ n, probeTime probe interval timeout (Clock.now s) s k = 0) {k : Nat}
    (hk : k ≤ n) :
    Clock.now (probeStart probe interval timeout (Clock.now s) s k) =
      Clock.now s + min (k * interval) timeout := by
  induction k with
  | zero => simp
  | succ k ih =>
    have hprev := ih (by omega)
    have hlate := hn.inTime k (by omega)
    have hzero := hinstant k (by omega)
    have hmono := hp (probeStart probe interval timeout (Clock.now s) s k)
    rw [probeStart_succ, round, LawfulClock.now_sleep, Nat.succ_mul]
    simp only [waited, probeTime, probeEnd] at hlate hzero
    omega

/-- Probes that take no time are no more than the intervals in the timeout, rounded up, and one. -/
theorem probes_le_of_instant {s : S} {n : Nat} {outcome : Except (PollError ε α) α × S}
    (hn : Ends probe accept interval timeout (Clock.now s) s n outcome)
    (hinstant : ∀ k ≤ n, probeTime probe interval timeout (Clock.now s) s k = 0) :
    n ≤ (timeout + interval - 1) / interval := by
  cases n with
  | zero => exact Nat.zero_le _
  | succ k =>
    -- The probe before the last one began before the timeout, at a multiple of the interval.
    have hstart := now_probeStart_of_instant hp hn hinstant (Nat.le_succ k)
    have hlate := hn.inTime k (Nat.lt_succ_self k)
    have hzero := hinstant k (Nat.le_succ k)
    have hmono := hp (probeStart probe interval timeout (Clock.now s) s k)
    rw [Nat.le_div_iff_mul_le hi, Nat.succ_mul]
    simp only [waited, probeTime, probeEnd] at hlate hzero
    omega

end

section

variable {ε α S : Type} [Clock S]

structure EndsInTime (probe : S → Except ε α × S) (accept : α → Bool) (interval timeout : Nat)
    (s : S) (n : Nat) (outcome : Except (PollError ε α) α × S) : Prop
    extends Ends probe accept interval timeout (Clock.now s) s n outcome where
  /-- An accepted first probe ends the wait without a pause. -/
  first : ∀ value, (probe s).1 = .ok value → accept value = true →
    outcome = (.ok value, (probe s).2)
  starts : ∀ k ≤ n,
    Clock.now s ≤ Clock.now (probeStart probe interval timeout (Clock.now s) s k) ∧
      Clock.now (probeStart probe interval timeout (Clock.now s) s k) ≤ Clock.now s + timeout
  /-- A timeout is reported between the timeout and the end of a probe begun no later. -/
  reported : ∀ last late, outcome.1 = .error (.timeout last late) →
    Clock.now outcome.2 = Clock.now s + late ∧ timeout ≤ late ∧
      late ≤ timeout + probeTime probe interval timeout (Clock.now s) s n
  reportedSoon : ∀ last late, outcome.1 = .error (.timeout last late) →
    probeTime probe interval timeout (Clock.now s) s n ≤ interval → late ≤ timeout + interval
  instant : (∀ k ≤ n, probeTime probe interval timeout (Clock.now s) s k = 0) →
    (∀ k ≤ n, Clock.now (probeStart probe interval timeout (Clock.now s) s k) =
      Clock.now s + min (k * interval) timeout) ∧
    n + 1 ≤ (timeout + interval - 1) / interval + 1

/-- A wait whose probes do not turn back the clock ends with one of them, in time. -/
theorem pollUntil_endsInTime [LawfulClock S] (probe : S → Except ε α × S) (accept : α → Bool)
    {interval : Nat} (timeout : Nat) (s : S) (hp : ∀ s, Clock.now s ≤ Clock.now (probe s).2)
    (hi : 0 < interval) :
    ∃ n, EndsInTime probe accept interval timeout s n
      (pollUntil probe accept interval timeout s) := by
  obtain ⟨n, hn⟩ := pollFrom_ends hp hi accept (timeout + patience) s
    (Nat.le_refl _) (Nat.le_add_right _ timeout) (by unfold patience; omega)
  have hreported : ∀ last late, (pollUntil probe accept interval timeout s).1 =
      .error (.timeout last late) →
      Clock.now (pollUntil probe accept interval timeout s).2 = Clock.now s + late ∧
        timeout ≤ late ∧ late ≤ timeout + probeTime probe interval timeout (Clock.now s) s n := by
    intro last late h
    obtain ⟨rfl, ht⟩ := Ends.timeout_eq hn h
    have hstart := now_probeStart hp hi hn (Nat.le_refl n)
    have hmono := hp (probeStart probe interval timeout (Clock.now s) s n)
    have hstate := congrArg Clock.now hn.state
    simp only [pollUntil, waited, probeTime, probeEnd] at hstate ht ⊢
    omega
  refine ⟨n, hn, ?_, ?_, hreported, ?_, ?_⟩
  · intro value hseen haccept
    exact Ends.eq_of_first hn hseen haccept
  · intro k hk
    exact now_probeStart hp hi hn hk
  · intro last late h hsoon
    have hlate := (hreported last late h).2.2
    omega
  · intro hinstant
    refine ⟨fun k hk => now_probeStart_of_instant hp hn hinstant hk, ?_⟩
    exact Nat.succ_le_succ (probes_le_of_instant hp hi hn hinstant)

end

def slowProbe (w : World Unit) : Except Error Nat × World Unit := (.ok w.clock, w.elapse 3)

/-- The second of two slow probes begins at the timeout and ends past it. -/
theorem pollUntil_endsInTime_slowProbe :
    (∀ w, Clock.now w ≤ Clock.now (slowProbe w).2) ∧ 0 < 2 ∧
      (∃ n, EndsInTime slowProbe (fun _ => false) 2 4 (World.start ⟨[], []⟩ ()) n
        (pollUntil slowProbe (fun _ => false) 2 4 (World.start ⟨[], []⟩ ()))) ∧
      (pollUntil slowProbe (fun _ => false) 2 4 (World.start ⟨[], []⟩ ())).1 =
        .error (.timeout 4 7) := by
  have hp : ∀ w, Clock.now w ≤ Clock.now (slowProbe w).2 := fun w => Nat.le_add_right w.clock 3
  exact ⟨hp, by decide, pollUntil_endsInTime slowProbe (fun _ => false) 4 _ hp (by decide), rfl⟩

end ContainerCheck.Poll
