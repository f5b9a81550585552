import ContainerCheck.Proofs.Polling
import ContainerCheck.Proofs.Results

namespace ContainerCheck

open ContainerCheck.Host ContainerCheck.Poll

def failure? {α : Type} : Except Error α → Option Error
  | .ok _ => none
  | .error error => some error

/-- Whether a step has come to an end, in whatever way. -/
def Concludes (outcome : Option Error) : Prop := ∀ condition, outcome ≠ some (.endless condition)

theorem concludes_none : Concludes none := nofun

theorem concludes_assertion (message : String) : Concludes (some (.assertion message)) := nofun

abbrev Conduct (σ : Type) := World σ → Option Error → World σ → Prop

/-- A conduct of steps that follow one another until one of them fails. -/
structure Conduct.Composes {σ : Type} (R : Conduct σ) : Prop where
  rest (w : World σ) : R w none w
  andThen {w w' w'' : World σ} {outcome : Option Error} :
    R w none w' → R w' outcome w'' → R w outcome w''
  giveUp {w w' : World σ} (error : Error) : R w none w' → R w (some error) w'

namespace Conduct.Composes

variable {σ : Type} {R : Conduct σ} (hR : R.Composes) {w w' : World σ}
include hR

theorem of_none (h : R w none w') (outcome : Option Error) : R w outcome w' := by
  cases outcome with
  | none => exact h
  | some error => exact hR.giveUp error h

/-- A step ends as its last part does, or after that has succeeded. -/
theorem follow {inner outer : Option Error} (h : R w inner w') (ho : inner = none ∨ outer = inner) :
    R w outer w' := by
  rcases ho with rfl | rfl
  · exact hR.of_none h outer
  · exact h

end Conduct.Composes

namespace Session

variable {σ α β : Type}

/-- A step with another one behind it succeeds only if both do. -/
theorem bind_run_eq_ok {first : Session σ α} {next : α → Session σ β} {w w' : World σ} {value : β}
    (h : (first >>= next) w = (.ok value, w')) : ∃ seen between,
      first w = (.ok seen, between) ∧ next seen between = (.ok value, w') := by
  rw [bind_run] at h
  rcases heq : first w with ⟨result, between⟩
  rw [heq] at h
  cases result with
  | ok seen => exact ⟨seen, between, rfl, h⟩
  | error error => cases h

theorem bind_run_fst_eq_ok_iff {first : Session σ α} {next : α → Session σ β} {w : World σ}
    {value : β} : ((first >>= next) w).1 = .ok value ↔
      ∃ seen, (first w).1 = .ok seen ∧ (next seen (first w).2).1 = .ok value := by
  rw [bind_run]
  rcases first w with ⟨result, between⟩
  cases result with
  | ok seen => simp
  | error error => simp

theorem lift_run_eq_ok {result : Except Error α} {w w' : World σ} {value : α}
    (h : Session.lift result w = (.ok value, w')) : result = .ok value ∧ w' = w :=
  ⟨congrArg Prod.fst h, (congrArg Prod.snd h).symm⟩

/-- A step whose value something is made of. -/
theorem map_run (step : Session σ α) (f : α → β) (w : World σ) :
    (step >>= fun value => Pure.pure (f value)) w = ((step w).1.map f, (step w).2) := by
  rw [bind_run]
  rcases step w with ⟨result, w'⟩
  cases result with
  | ok value => rfl
  | error error => rfl

theorem map_run_snd (step : Session σ α) (f : α → β) (w : World σ) :
    ((step >>= fun value => Pure.pure (f value)) w).2 = (step w).2 := by
  rw [map_run]

/-- A step keeps to a conduct from whatever world it starts in. -/
def Obeys (R : Conduct σ) (step : Session σ α) : Prop :=
  ∀ w, R w (failure? (step w).1) (step w).2

theorem Obeys.map {R : Conduct σ} {step : Session σ α} (h : Obeys R step) (f : α → β) :
    Obeys R (step >>= fun value => Pure.pure (f value)) := by
  intro w
  have hstep := h w
  rw [map_run]
  cases heq : (step w).1 with
  | ok value =>
    rw [heq] at hstep
    exact hstep
  | error error =>
    rw [heq] at hstep
    exact hstep

section

variable {R : Conduct σ} (hR : R.Composes)
include hR

theorem Obeys.lift (result : Except Error α) : Obeys R (Session.lift result) := by
  intro w
  exact hR.of_none (hR.rest w) _

theorem Obeys.pure (value : α) : Obeys R (Pure.pure value : Session σ α) := by
  intro w
  exact hR.rest w

theorem Obeys.fail (error : Error) : Obeys R (Session.fail error : Session σ α) := by
  intro w
  exact hR.giveUp error (hR.rest w)

theorem Obeys.require (condition : Bool) (message : String) :
    Obeys R (Session.require condition message) := by
  unfold Session.require
  split
  · exact Obeys.pure hR ()
  · exact Obeys.fail hR _

/-- A step from one world keeps to a conduct if its first part does, and its second part from the
world that the first one leaves. -/
theorem bind_obeys {first : Session σ α} {next : α → Session σ β} {w : World σ}
    (hfirst : R w (failure? (first w).1) (first w).2)
    (hnext : ∀ value w', first w = (.ok value, w') →
      R w' (failure? (next value w').1) (next value w').2) :
    R w (failure? ((first >>= next) w).1) ((first >>= next) w).2 := by
  rw [bind_run]
  rcases heq : first w with ⟨result, w'⟩
  rw [heq] at hfirst
  cases result with
  | ok value => exact hR.andThen hfirst (hnext value w' heq)
  | error error => exact hfirst

theorem Obeys.bind {first : Session σ α} {next : α → Session σ β} (hfirst : Obeys R first)
    (hnext : ∀ value, Obeys R (next value)) : Obeys R (first >>= next) := by
  intro w
  exact bind_obeys hR (hfirst w) fun value w' _ => hnext value w'

end

end Session

namespace Poll

variable {ε α : Type} {accept : α → Bool} {interval bound passed : Nat}

/-- A wait that ends with a failed probe fails as the probe does. -/
theorem failure_of_afterProbe {seen : Except Error α} {result : Except (PollError Error α) α}
    (condition : String) (describe : α → String)
    (h : afterProbe accept interval bound passed seen = .done result) :
    failure? seen = none ∨
      failure? (result.mapError (PollError.toError condition describe)) = failure? seen := by
  cases seen with
  | ok value => exact .inl rfl
  | error error =>
    cases h
    exact .inr rfl

/-- A hold that ends with a failed probe fails as the probe does. -/
theorem failure_of_afterCheck {seen : Except Error α} {result : Except (HoldError Error α) α}
    (condition : String) (describe : α → String)
    (h : afterCheck accept interval bound passed seen = .done result) :
    failure? seen = none ∨
      failure? (result.mapError (HoldError.toError condition describe)) = failure? seen := by
  cases seen with
  | ok value => exact .inl rfl
  | error error =>
    cases h
    exact .inr rfl

theorem seen_of_afterProbe {seen : Except Error α} {span : Nat}
    (h : afterProbe accept interval bound passed seen = .pause span) : failure? seen = none := by
  cases seen with
  | ok value => rfl
  | error error => cases h

theorem seen_of_afterCheck {seen : Except Error α} {span : Nat}
    (h : afterCheck accept interval bound passed seen = .pause span) : failure? seen = none := by
  cases seen with
  | ok value => rfl
  | error error => cases h

/-- A wait that succeeds ends in the world that its last probe leaves. -/
theorem probe_of_pollFrom_ok {S : Type} [Clock S] {probe : S → Except ε α × S} {timeout start : Nat}
    {rounds : Nat} {s : S} {value : α}
    (h : (pollFrom probe accept interval timeout start rounds s).1 = .ok value) :
    ∃ s', probe s' = (.ok value, (pollFrom probe accept interval timeout start rounds s).2) := by
  induction rounds generalizing s with
  | zero => cases h
  | succ rounds ih =>
    simp only [pollFrom] at h ⊢
    split at h
    · next result hdone =>
      subst h
      have hv := verdict_of_done hdone
      generalize hseen : (probe s).1 = seen at hv
      -- A wait that ends in another way does not succeed.
      cases hv with
      | accepted => exact ⟨s, Prod.ext hseen rfl⟩
    · next span hpause => exact ih h

theorem probe_of_pollUntil_ok {S : Type} [Clock S] {probe : S → Except ε α × S} {timeout : Nat}
    {s : S} {value : α} (h : (pollUntil probe accept interval timeout s).1 = .ok value) :
    ∃ s', probe s' = (.ok value, (pollUntil probe accept interval timeout s).2) :=
  probe_of_pollFrom_ok h

/-- A hold that succeeds ends in the world that its last probe leaves, once the window is over. -/
theorem probe_of_holdFrom_ok {S : Type} [Clock S] {probe : S → Except ε α × S} {accept : α → Bool}
    {interval window start rounds : Nat} {s : S} {value : α}
    (h : (holdFrom probe accept interval window start rounds s).1 = .ok value) :
    (∃ s', probe s' = (.ok value, (holdFrom probe accept interval window start rounds s).2)) ∧
      window ≤ Clock.now (holdFrom probe accept interval window start rounds s).2 - start := by
  induction rounds generalizing s with
  | zero => cases h
  | succ rounds ih =>
    simp only [holdFrom] at h ⊢
    generalize hseen : (probe s).1 = seen at h ⊢
    cases seen with
    | error error => cases h
    | ok seen =>
      rw [afterCheck] at h ⊢
      by_cases haccept : accept seen = true
      · by_cases hover : window ≤ Clock.now (probe s).2 - start
        · simp only [haccept, hover, not_true_eq_false, if_true, if_false] at h ⊢
          cases h
          exact ⟨⟨s, Prod.ext hseen rfl⟩, trivial⟩
        · simp only [haccept, hover, not_true_eq_false, if_false] at h ⊢
          exact ih h
      · simp only [haccept] at h
        cases h

theorem probe_of_holdSteady_ok {S : Type} [Clock S] {probe : S → Except ε α × S}
    {accept : α → Bool} {interval window : Nat} {s : S} {value : α}
    (h : (holdSteady probe accept interval window s).1 = .ok value) :
    (∃ s', probe s' = (.ok value, (holdSteady probe accept interval window s).2)) ∧
      window ≤ Clock.now (holdSteady probe accept interval window s).2 - Clock.now s :=
  probe_of_holdFrom_ok h

end Poll

namespace Session

variable {σ α : Type} {R : Conduct σ} {probe : Session σ α}

theorem waitFor_eq (condition : String) (describe : α → String) (probe : Session σ α)
    (accept : α → Bool) (interval timeout : Nat) :
    waitFor condition describe probe accept interval timeout = fun w =>
      match pollUntil probe accept interval timeout w with
      | (.ok value, w) => (.ok value, w)
      | (.error error, w) => (.error (error.toError condition describe), w) := rfl

theorem hold_eq (condition : String) (describe : α → String) (probe : Session σ α)
    (accept : α → Bool) (interval window : Nat) :
    hold condition describe probe accept interval window = fun w =>
      match holdSteady probe accept interval window w with
      | (.ok value, w) => (.ok value, w)
      | (.error error, w) => (.error (error.toError condition describe), w) := rfl

/-- A wait ends as its polling does, with its failure in words. -/
theorem waitFor_run (condition : String) (describe : α → String) (probe : Session σ α)
    (accept : α → Bool) (interval timeout : Nat) (w : World σ) :
    (waitFor condition describe probe accept interval timeout w).1 =
        (pollUntil probe accept interval timeout w).1.mapError
          (PollError.toError condition describe) ∧
      (waitFor condition describe probe accept interval timeout w).2 =
        (pollUntil probe accept interval timeout w).2 := by
  -- The polling is made a variable before its cases, as its bound is too large to unfold.
  have h := congrFun (waitFor_eq condition describe probe accept interval timeout) w
  generalize pollUntil probe accept interval timeout w = outcome at h ⊢
  rw [h]
  rcases outcome with ⟨result, w'⟩
  cases result with
  | ok value => exact ⟨rfl, rfl⟩
  | error error => exact ⟨rfl, rfl⟩

/-- A hold ends as its polling does, with its failure in words. -/
theorem hold_run (condition : String) (describe : α → String) (probe : Session σ α)
    (accept : α → Bool) (interval window : Nat) (w : World σ) :
    (hold condition describe probe accept interval window w).1 =
        (holdSteady probe accept interval window w).1.mapError
          (HoldError.toError condition describe) ∧
      (hold condition describe probe accept interval window w).2 =
        (holdSteady probe accept interval window w).2 := by
  have h := congrFun (hold_eq condition describe probe accept interval window) w
  generalize holdSteady probe accept interval window w = outcome at h ⊢
  rw [h]
  rcases outcome with ⟨result, w'⟩
  cases result with
  | ok value => exact ⟨rfl, rfl⟩
  | error error => exact ⟨rfl, rfl⟩

theorem probe_of_waitFor_ok {condition : String} {describe : α → String} {accept : α → Bool}
    {interval timeout : Nat} {w w' : World σ} {value : α}
    (h : waitFor condition describe probe accept interval timeout w = (.ok value, w')) :
    ∃ w'', probe w'' = (.ok value, w') := by
  obtain ⟨hfst, hsnd⟩ := waitFor_run condition describe probe accept interval timeout w
  rw [h] at hfst hsnd
  obtain ⟨w'', hw⟩ := probe_of_pollUntil_ok (eq_ok_of_mapError hfst.symm)
  rw [← hsnd] at hw
  exact ⟨w'', hw⟩

/-- A hold that succeeds ends with a probe, once the window is over. -/
theorem probe_of_hold_ok {condition : String} {describe : α → String} {probe : Session σ α}
    {accept : α → Bool} {interval window : Nat} {w w' : World σ} {value : α}
    (h : hold condition describe probe accept interval window w = (.ok value, w')) :
    (∃ w'', probe w'' = (.ok value, w')) ∧ window ≤ w'.clock - w.clock := by
  obtain ⟨hfst, hsnd⟩ := hold_run condition describe probe accept interval window w
  rw [h] at hfst hsnd
  have hprobe := probe_of_holdSteady_ok (eq_ok_of_mapError hfst.symm)
  rw [← hsnd] at hprobe
  exact hprobe

section

variable (hR : R.Composes) (hsleep : ∀ w span, R w none (World.sleep w span))
  (hprobe : Obeys R probe)
include hR hsleep hprobe

theorem pollFrom_obeys (condition : String) (describe : α → String) (accept : α → Bool)
    (interval timeout start rounds : Nat) (w : World σ) :
    R w (failure? ((pollFrom probe accept interval timeout start rounds w).1.mapError
      (PollError.toError condition describe)))
      (pollFrom probe accept interval timeout start rounds w).2 := by
  induction rounds generalizing w with
  | zero => exact hR.giveUp _ (hR.rest w)
  | succ rounds ih =>
    have hseen := hprobe w
    simp only [pollFrom]
    split
    · next result hdone => exact hR.follow hseen (failure_of_afterProbe condition describe hdone)
    · next span hpause =>
      -- A probe that the wait goes on after has not failed, so more may follow it.
      rw [seen_of_afterProbe hpause] at hseen
      exact hR.andThen hseen (hR.andThen (hsleep _ span) (ih _))

theorem holdFrom_obeys (condition : String) (describe : α → String) (accept : α → Bool)
    (interval window start rounds : Nat) (w : World σ) :
    R w (failure? ((holdFrom probe accept interval window start rounds w).1.mapError
      (HoldError.toError condition describe)))
      (holdFrom probe accept interval window start rounds w).2 := by
  induction rounds generalizing w with
  | zero => exact hR.giveUp _ (hR.rest w)
  | succ rounds ih =>
    have hseen := hprobe w
    simp only [holdFrom]
    split
    · next result hdone => exact hR.follow hseen (failure_of_afterCheck condition describe hdone)
    · next span hpause =>
      rw [seen_of_afterCheck hpause] at hseen
      exact hR.andThen hseen (hR.andThen (hsleep _ span) (ih _))

theorem pollUntil_obeys (condition : String) (describe : α → String) (accept : α → Bool)
    (interval timeout : Nat) (w : World σ) :
    R w (failure? ((pollUntil probe accept interval timeout w).1.mapError
      (PollError.toError condition describe)))
      (pollUntil probe accept interval timeout w).2 :=
  pollFrom_obeys hR hsleep hprobe condition describe accept interval timeout (Clock.now w)
    (timeout + patience) w

theorem holdSteady_obeys (condition : String) (describe : α → String) (accept : α → Bool)
    (interval window : Nat) (w : World σ) :
    R w (failure? ((holdSteady probe accept interval window w).1.mapError
      (HoldError.toError condition describe)))
      (holdSteady probe accept interval window w).2 :=
  holdFrom_obeys hR hsleep hprobe condition describe accept interval window (Clock.now w)
    (window + patience) w

theorem Obeys.waitFor (condition : String) (describe : α → String) (accept : α → Bool)
    (interval timeout : Nat) :
    Obeys R (Session.waitFor condition describe probe accept interval timeout) := by
  intro w
  obtain ⟨hfst, hsnd⟩ := waitFor_run condition describe probe accept interval timeout w
  rw [hfst, hsnd]
  exact pollUntil_obeys hR hsleep hprobe condition describe accept interval timeout w

theorem Obeys.hold (condition : String) (describe : α → String) (accept : α → Bool)
    (interval window : Nat) :
    Obeys R (Session.hold condition describe probe accept interval window) := by
  intro w
  obtain ⟨hfst, hsnd⟩ := hold_run condition describe probe accept interval window w
  rw [hfst, hsnd]
  exact holdSteady_obeys hR hsleep hprobe condition describe accept interval window w

end

end Session

end ContainerCheck
