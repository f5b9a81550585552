import ContainerCheck.Proofs.RunBudgets
import ContainerCheck.Proofs.LogDirectories
import ContainerCheck.Proofs.OperationAccounts
import Mathlib.Data.List.Basic

namespace ContainerCheck

open ContainerCheck.Cri ContainerCheck.Cri.Exchange ContainerCheck.Host ContainerCheck.Session

variable {σ α : Type}

namespace Cri

/-- Whether a call is made only to supply a container with its image, or to create it. -/
def Request.supplies : Request → Bool
  | createContainer .. | pullImage _ => true
  | _ => false

namespace Exchange

def refusesImage : Exchange → Bool
  | asked (.imageStatus _) (.error _) | asked (.pullImage _) (.error _) => true
  | _ => false

def pulls (image : Image) : Exchange → Bool
  | asked (.pullImage other) (.ok _) => other == image
  | _ => false

/-- Whether calls end with a report that an image is present, or with one that it is absent and a
pull that succeeds. -/
def Supplied (image : Image) (before : List Exchange) : Prop :=
  (∃ status, [asked (.imageStatus image) (.ok (some status))] <:+ before) ∨
    ∃ reference, [asked (.imageStatus image) (.ok none),
      asked (.pullImage image) (.ok reference)] <:+ before

def MayFollow (before : List Exchange) : Exchange → Prop
  | asked (.createContainer _ config _) _ =>
    Supplied config.image before ∧ ∀ other ∈ before, other.refusesImage = false
  | asked (.pullImage image) _ => [asked (.imageStatus image) (.ok none)] <:+ before
  | _ => True

/-- Whether each of several calls may be made right behind those before it. -/
def Provisioned (trace : List Exchange) : Prop :=
  ∀ before exchange after, trace = before ++ exchange :: after → exchange.MayFollow before

theorem Supplied.behind {image : Image} {before : List Exchange} (h : Supplied image before)
    (first : List Exchange) : Supplied image (first ++ before) := by
  rcases h with ⟨status, hpresent⟩ | ⟨reference, hpulled⟩
  · exact .inl ⟨status, hpresent.trans (List.suffix_append first before)⟩
  · exact .inr ⟨reference, hpulled.trans (List.suffix_append first before)⟩

/-- More calls may stand in front if none of them refuses an image. -/
theorem MayFollow.behind {exchange : Exchange} {before first : List Exchange}
    (h : exchange.MayFollow before) (hfirst : ∀ other ∈ first, other.refusesImage = false) :
    exchange.MayFollow (first ++ before) := by
  unfold MayFollow at h ⊢
  split
  · refine ⟨h.1.behind first, ?_⟩
    intro other hother
    rcases List.mem_append.mp hother with hmem | hmem
    · exact hfirst other hmem
    · exact h.2 other hmem
  · exact h.trans (List.suffix_append first before)
  · trivial

theorem provisioned_nil : Provisioned [] := by
  intro before exchange after heq
  cases before <;> cases heq

theorem Provisioned.concat {trace : List Exchange} (h : Provisioned trace) {last : Exchange}
    (hlast : last.MayFollow trace) : Provisioned (trace ++ [last]) := by
  intro before exchange after heq
  rcases List.eq_nil_or_concat' after with rfl | ⟨middle, other, rfl⟩
  · obtain ⟨rfl, hend⟩ := List.append_inj' heq rfl
    cases hend
    exact hlast
  · rw [← List.cons_append, ← List.append_assoc] at heq
    obtain ⟨htrace, -⟩ := List.append_inj' heq rfl
    exact h before exchange middle htrace

theorem Provisioned.append {trace more : List Exchange} (h : Provisioned trace)
    (hmore : Provisioned more) (hnone : ∀ exchange ∈ trace, exchange.refusesImage = false) :
    Provisioned (trace ++ more) := by
  intro before exchange after heq
  rcases List.append_eq_append_iff.mp heq with ⟨front, rfl, hsplit⟩ | ⟨back, rfl, hsplit⟩
  · exact (hmore front exchange after hsplit).behind hnone
  · cases back with
    | nil =>
      have hfirst := (hmore [] exchange after hsplit.symm).behind hnone
      rwa [List.append_nil, List.append_nil] at hfirst
    | cons other back =>
      cases hsplit
      exact h before exchange back rfl

theorem eq_of_pulls {image : Image} {exchange : Exchange} (h : exchange.pulls image = true) :
    ∃ reference, exchange = asked (.pullImage image) (.ok reference) := by
  unfold pulls at h
  split at h
  · next other reference =>
    obtain rfl := beq_iff_eq.mp h
    exact ⟨reference, rfl⟩
  · cases h

theorem mayFollow_of_not_supplies {request : Request} (h : request.supplies = false)
    (before : List Exchange) (answer : request.Answer) :
    (asked request answer).MayFollow before := by
  cases request with
  | createContainer sandbox config sandboxConfig => cases h
  | pullImage image => cases h
  | _ => trivial

theorem refusesImage_of_ok (request : Request) (value : request.Value) :
    (asked request (.ok value)).refusesImage = false := by
  cases request <;> rfl

end Exchange

theorem Request.not_supplies_of_sandbox {request : Request} (h : request.ofSandbox = true) :
    request.supplies = false := by
  cases request <;> first | rfl | cases h

theorem Request.not_refuses_of_sandbox {request : Request} (h : request.ofSandbox = true)
    (answer : request.Answer) : (Exchange.asked request answer).refusesImage = false := by
  cases request <;> first | rfl | cases h

theorem Client.exchange_callOf {client : Client σ} {request : Request} {w : World σ}
    {answer : request.Answer} (h : (client.ask request w).1 = answer) :
    (client.callOf request w).exchange = .asked request answer := by
  rw [← h]
  rfl

end Cri

namespace Check

/-- A conduct that calls keep to, those that pull an image or create a container only together with
the calls in front of them. -/
structure Harness.ConductsSupply (h : Harness σ) (R : Conduct σ) : Prop
    extends Conduct.Composes R where
  sleeps (w : World σ) (span : Nat) : R w none (w.sleep span)
  alike {w w' w'' : World σ} {outcome : Option Error} :
    R w outcome w' → w'.Alike w'' → R w outcome w''
  tell {w w' : World σ} {outcome : Option Error} {request : Request} :
    request.ofSandbox = true → R w outcome w' → R w outcome (h.tell request w')
  calls {request : Request} : request.supplies = false → Obeys R (h.call request)
  fails (id : ContainerId) (command : List String) : Obeys R (h.verifyExecFails id command)
  stops (id : ContainerId) (timeout : Nat) : Obeys R (h.stopContainer id timeout)
  ensures (image : Image) : Obeys R (h.ensureImage image)
  creates (fixture : Fixture) (config : ContainerConfig) :
    Obeys R (h.createContainer fixture config)

namespace Harness

variable {h : Harness σ} {R : Conduct σ}

theorem ConductsSupply.graded (hR : h.ConductsSupply R) : Conduct.Graded fun _ => R :=
  hR.toComposes.graded hR.alike

theorem ConductsSupply.budgets (hR : h.ConductsSupply R) :
    h.RunBudgets Prices.free fun _ => R where
  toGraded := hR.graded
  runs _ := hR.calls rfl
  tell := hR.tell
  ensureImage := hR.ensures
  create := hR.creates
  call {request} hfree := hR.calls (by cases request <;> first | rfl | cases hfree)
  execFails := hR.fails
  status _ := hR.calls rfl
  waitForState _ _ :=
    (Obeys.waitFor hR.toComposes hR.sleeps ((hR.calls rfl).map _) _ _ _ _ _).map _
  stop := hR.stops
  waitForLog path :=
    Obeys.waitFor hR.toComposes hR.sleeps (hR.graded.onHost (.readLog path)) _ _ _ _ _
  verifyUnchanged path _ := (Obeys.hold hR.toComposes hR.sleeps
    ((hR.graded.onHost (.readLog path)).map _) _ _ _ _ _).map _

inductive EnsureRun (h : Harness σ) (image : Image) (w : World σ) :
    Except Error Unit × World σ → Prop
  | unknown {message : String}
    (hstatus : (h.client.ask (.imageStatus image) w).1 = .error message) :
    EnsureRun h image w
      (.error (.runtime .imageStatus message), (h.client.ask (.imageStatus image) w).2)
  | present {status : ImageStatus}
    (hstatus : (h.client.ask (.imageStatus image) w).1 = .ok (some status)) :
    EnsureRun h image w (.ok (), (h.client.ask (.imageStatus image) w).2)
  | refused {message : String} (hstatus : (h.client.ask (.imageStatus image) w).1 = .ok none)
    (hpull : (h.client.ask (.pullImage image) (h.client.ask (.imageStatus image) w).2).1 =
      .error message) :
    EnsureRun h image w (.error (.runtime .pullImage message),
      (h.client.ask (.pullImage image) (h.client.ask (.imageStatus image) w).2).2)
  | pulled {reference : String} (hstatus : (h.client.ask (.imageStatus image) w).1 = .ok none)
    (hpull : (h.client.ask (.pullImage image) (h.client.ask (.imageStatus image) w).2).1 =
      .ok reference) :
    EnsureRun h image w
      (.ok (), (h.client.ask (.pullImage image) (h.client.ask (.imageStatus image) w).2).2)

theorem ensureRun (h : Harness σ) (image : Image) (w : World σ) :
    EnsureRun h image w (h.ensureImage image w) := by
  unfold ensureImage
  rw [bind_run]
  simp only [call]
  cases hstatus : (h.client.ask (.imageStatus image) w).1 with
  | error message => exact .unknown hstatus
  | ok status =>
    cases status with
    | some status => exact .present hstatus
    | none =>
      simp only [runtimeResult, bind_run, call]
      cases hpull : (h.client.ask (.pullImage image) (h.client.ask (.imageStatus image) w).2).1 with
      | error message => exact .refused hstatus hpull
      | ok reference => exact .pulled hstatus hpull

end Harness

/-- A step whose calls are provisioned, and which succeeds only if no call for an image fails. -/
def Provisions : Conduct σ := fun w outcome w' =>
  ∃ made, w.Made made w' ∧ Provisioned (made.map Call.exchange) ∧
    (outcome = none → ∀ exchange ∈ made.map Call.exchange, exchange.refusesImage = false)

theorem provisions_composes : Conduct.Composes (Provisions : Conduct σ) where
  rest w := ⟨[], .nil rfl, provisioned_nil, by simp⟩
  andThen := by
    intro w w' w'' outcome hfirst hnext
    obtain ⟨made, hmade, hprovisioned, hnone⟩ := hfirst
    obtain ⟨more, hmore, hprovisioned', hnone'⟩ := hnext
    refine ⟨made ++ more, hmade.append hmore, ?_, ?_⟩
    · rw [List.map_append]
      exact hprovisioned.append hprovisioned' (hnone rfl)
    · intro hok exchange hexchange
      rw [List.map_append] at hexchange
      rcases List.mem_append.mp hexchange with hmem | hmem
      · exact hnone rfl exchange hmem
      · exact hnone' hok exchange hmem
  giveUp error hkept := by
    obtain ⟨made, hmade, hprovisioned, -⟩ := hkept
    exact ⟨made, hmade, hprovisioned, nofun⟩

/-- One call that supplies nothing. -/
theorem provisions_of_made {w w' : World σ} {call : Call σ} (hmade : w.Made [call] w')
    (hfollows : call.exchange.MayFollow []) {outcome : Option Error}
    (hnone : outcome = none → call.exchange.refusesImage = false) : Provisions w outcome w' := by
  refine ⟨[call], hmade, provisioned_nil.concat hfollows, ?_⟩
  intro hok exchange hexchange
  rw [List.map_singleton, List.mem_singleton] at hexchange
  rw [hexchange]
  exact hnone hok

namespace Harness

variable {h : Harness σ}

/-- What ensures that there is an image succeeds once the image is supplied. -/
theorem supplied_of_ensureImage (image : Image) (w : World σ) :
    ∃ made, w.Made made (h.ensureImage image w).2 ∧ Provisioned (made.map Call.exchange) ∧
      (failure? (h.ensureImage image w).1 = none → Supplied image (made.map Call.exchange) ∧
        ∀ exchange ∈ made.map Call.exchange, exchange.refusesImage = false) := by
  have hrun := ensureRun h image w
  have hasked := World.Made.ask h.client (.imageStatus image) w
  have hboth := hasked.append (.ask h.client (.pullImage image) _)
  have hstarts : Provisioned ([h.client.callOf (.imageStatus image) w].map Call.exchange) :=
    provisioned_nil.concat (mayFollow_of_not_supplies rfl [] _)
  generalize h.ensureImage image w = outcome at hrun ⊢
  cases hrun with
  | unknown hstatus => exact ⟨_, hasked, hstarts, nofun⟩
  | present hstatus =>
    refine ⟨_, hasked, hstarts, fun _ => ?_⟩
    rw [List.map_singleton, Client.exchange_callOf hstatus]
    exact ⟨.inl ⟨_, List.suffix_refl _⟩, by simp [refusesImage]⟩
  | refused hstatus hpull =>
    refine ⟨_, hboth, ?_, nofun⟩
    rw [List.map_append]
    apply hstarts.concat
    rw [List.map_singleton, Client.exchange_callOf hstatus]
    exact List.suffix_refl _
  | @pulled reference hstatus hpull =>
    have hcalls : [h.client.callOf (.imageStatus image) w,
        h.client.callOf (.pullImage image) (h.client.ask (.imageStatus image) w).2].map
          Call.exchange = [.asked (.imageStatus image) (.ok none),
            .asked (.pullImage image) (.ok reference)] := by
      rw [List.map_cons, List.map_singleton, Client.exchange_callOf hstatus,
        Client.exchange_callOf hpull]
    refine ⟨_, hboth, ?_, fun _ => ?_⟩
    · rw [List.map_append]
      apply hstarts.concat
      rw [List.map_singleton, Client.exchange_callOf hstatus]
      exact List.suffix_refl _
    · rw [List.singleton_append, hcalls]
      exact ⟨.inr ⟨_, List.suffix_refl _⟩, by simp [refusesImage]⟩

theorem provisions_ensureImage (image : Image) : Obeys Provisions (h.ensureImage image) := by
  intro w
  obtain ⟨made, hmade, hprovisioned, hok⟩ := supplied_of_ensureImage (h := h) image w
  exact ⟨made, hmade, hprovisioned, fun hnone => (hok hnone).2⟩

theorem provisions_createContainer (fixture : Fixture) (config : ContainerConfig) :
    Obeys Provisions (h.createContainer fixture config) := by
  intro w
  obtain ⟨made, hmade, hprovisioned, hok⟩ := supplied_of_ensureImage (h := h) config.image w
  unfold createContainer
  rw [bind_run]
  rcases heq : h.ensureImage config.image w with ⟨result, w'⟩
  rw [heq] at hmade hok
  cases result with
  | error error => exact ⟨made, hmade, hprovisioned, nofun⟩
  | ok value =>
    obtain ⟨hsupplied, hnone⟩ := hok rfl
    have hcreated := World.Made.ask h.client (.createContainer fixture.id config fixture.config) w'
    refine ⟨_, hmade.append hcreated, ?_, ?_⟩
    · rw [List.map_append]
      exact hprovisioned.concat ⟨hsupplied, hnone⟩
    · intro _ exchange hexchange
      rw [List.map_append] at hexchange
      rcases List.mem_append.mp hexchange with hmem | hmem
      · exact hnone exchange hmem
      · rw [List.map_singleton, List.mem_singleton] at hmem
        rw [hmem]
        rfl

theorem refusesImage_of_call {request : Request} {w : World σ}
    (hok : failure? (h.call request w).1 = none) :
    (h.client.callOf request w).exchange.refusesImage = false := by
  unfold Harness.call at hok
  cases hanswer : (h.client.ask request w).1 with
  | ok value =>
    rw [Client.exchange_callOf hanswer]
    exact refusesImage_of_ok request value
  | error message =>
    simp only [hanswer] at hok
    cases hok

/-- In whatever a harness does, images are provisioned. -/
theorem conducts_provisions (h : Harness σ) : h.ConductsSupply Provisions where
  toComposes := provisions_composes
  sleeps w span := ⟨[], .nil (World.calls_sleep w span), provisioned_nil, by simp⟩
  alike hkept halike := by
    obtain ⟨made, hmade, hprovisioned, hnone⟩ := hkept
    exact ⟨made, hmade.sameCalls halike.calls, hprovisioned, hnone⟩
  tell hsandbox hkept := by
    obtain ⟨made, hmade, hprovisioned, hnone⟩ := hkept
    refine ⟨_, hmade.append (.ask h.client _ _), ?_, ?_⟩
    · rw [List.map_append]
      exact hprovisioned.concat
        (mayFollow_of_not_supplies (Request.not_supplies_of_sandbox hsandbox) _ _)
    · intro hok exchange hexchange
      rw [List.map_append] at hexchange
      rcases List.mem_append.mp hexchange with hmem | hmem
      · exact hnone hok exchange hmem
      · rw [List.map_singleton, List.mem_singleton] at hmem
        rw [hmem]
        exact Request.not_refuses_of_sandbox hsandbox _
  calls hfree w := provisions_of_made (.ask h.client _ w)
    (mayFollow_of_not_supplies hfree [] _) refusesImage_of_call
  fails id command w := provisions_of_made
    (.ask h.client (.execSync id command h.config.execSyncTimeout) w) trivial fun _ => rfl
  stops id timeout w := provisions_of_made (made_stopContainer h id timeout w) trivial fun _ => rfl
  ensures := provisions_ensureImage
  creates := provisions_createContainer

end Harness

end Check

def Event.Keeps (has : σ → Prop) (event : Event σ) : Prop :=
  ∀ store : Store σ, has store.state → has (event.effect store).state

structure Cri.Answered.Keeps (answered : Answered σ α) (has : σ → Prop) (store : Store σ) :
    Prop where
  now : has store.state → has answered.store.state
  later : ∀ event ∈ answered.events, event.Keeps has

/-- An image service in which an image stays once it has been pulled, and is reported while it is
there. -/
structure Cri.Client.KeepsImage (client : Client σ) (image : Image) (has : σ → Prop) : Prop where
  answers (request : Request) (now : Nat) (store : Store σ) :
    (client.answer request now store).Keeps has store
  stops (id : ContainerId) (timeout now : Nat) (store : Store σ) :
    (client.stop id timeout now store).Keeps has store
  pulled (now : Nat) (store : Store σ) (reference : String) :
    (client.answer (.pullImage image) now store).value = .ok reference →
      has (client.answer (.pullImage image) now store).store.state
  reported (now : Nat) (store : Store σ) :
    has store.state → (client.answer (.imageStatus image) now store).value ≠ .ok none

namespace World

def Keeping (w : World σ) (has : σ → Prop) : Prop := ∀ event ∈ w.pending, event.Keeps has

theorem Keeping.sleep {w : World σ} {has : σ → Prop} (h : w.Keeping has) (span : Nat) :
    (w.sleep span).Keeping has ∧ (has w.store.state → has (w.sleep span).store.state) := by
  have hrespects : Check.Respecting (fun before after => has before.state → has after.state) w none
      (w.sleep span) := by
    refine Check.respecting_sleep ?_ ?_ w span
    · exact fun _ hhas => hhas
    · exact fun hab hbc hhas => hbc (hab hhas)
  exact hrespects h

theorem Keeping.settle {answered : Answered σ α} {w : World σ} {has : σ → Prop}
    (h : w.Keeping has) (hanswered : answered.Keeps has w.store) (span : Nat)
    (exchange : Exchange) :
    (answered.settle span exchange w).Keeping has ∧
      (has w.store.state → has (answered.settle span exchange w).store.state) := by
  have hrespects : Check.Respecting (fun before after => has before.state → has after.state) w none
      (answered.settle span exchange w) :=
    Check.respecting_settle ⟨hanswered.now, hanswered.later⟩ span exchange none
  exact hrespects h

end World

namespace Check

def pulls (image : Image) (made : List (Call σ)) : Nat :=
  made.countP fun call => call.exchange.pulls image

theorem pulls_append (image : Image) (made more : List (Call σ)) :
    pulls image (made ++ more) = pulls image made + pulls image more :=
  List.countP_append

theorem pulls_callOf {image : Image} (client : Client σ) {request : Request}
    (h : request ≠ .pullImage image) (w : World σ) : pulls image [client.callOf request w] = 0 := by
  unfold pulls
  rw [List.countP_eq_zero]
  intro call hcall hpulls
  obtain ⟨reference, hexchange⟩ := Exchange.eq_of_pulls hpulls
  rw [List.mem_singleton.mp hcall] at hexchange
  exact h (Exchange.asked.inj hexchange).1

/-- These calls pull an image only if it is not there, so that they pull it once at most. -/
structure Pulling (image : Image) (has : σ → Prop) (w : World σ) (made : List (Call σ))
    (w' : World σ) : Prop where
  calls : w.Made made w'
  keeping : w'.Keeping has
  once : pulls image made ≤ 1
  gains : 0 < pulls image made → has w'.store.state
  spares : has w.store.state → pulls image made = 0 ∧ has w'.store.state

section

variable {image : Image} {has : σ → Prop} {w w' w'' : World σ} {made more : List (Call σ)}

/-- Calls that do not pull the image. -/
theorem pulling_of_none (hmade : w.Made made w') (hnone : pulls image made = 0)
    (hkept : w'.Keeping has ∧ (has w.store.state → has w'.store.state)) :
    Pulling image has w made w' where
  calls := hmade
  keeping := hkept.1
  once := by omega
  gains hsome := by omega
  spares hhas := ⟨hnone, hkept.2 hhas⟩

theorem Pulling.alike (h : Pulling image has w made w') (halike : w'.Alike w'') :
    Pulling image has w made w'' := by
  refine ⟨h.calls.sameCalls halike.calls, ?_, h.once, ?_, ?_⟩
  · unfold World.Keeping
    rw [halike.pending]
    exact h.keeping
  · rw [halike.state]
    exact h.gains
  · rw [halike.state]
    exact h.spares

theorem Pulling.append (h : Pulling image has w made w') (h' : Pulling image has w' more w'') :
    Pulling image has w (made ++ more) w'' where
  calls := h.calls.append h'.calls
  keeping := h'.keeping
  once := by
    -- What has been pulled is there, and is not pulled again.
    have hfirst := h.once
    have hnext := h'.once
    rw [pulls_append]
    rcases Nat.eq_zero_or_pos (pulls image made) with hnone | hsome
    · omega
    · have hspared := (h'.spares (h.gains hsome)).1
      omega
  gains hsome := by
    rw [pulls_append] at hsome
    rcases Nat.eq_zero_or_pos (pulls image more) with hnone | hnext
    · apply (h'.spares (h.gains _)).2
      omega
    · exact h'.gains hnext
  spares hhas := by
    obtain ⟨hnone, hhas'⟩ := h.spares hhas
    obtain ⟨hnone', hhas''⟩ := h'.spares hhas'
    rw [pulls_append]
    exact ⟨by omega, hhas''⟩

end

def PullsOnce (image : Image) (has : σ → Prop) : Conduct σ := fun w _ w' =>
  w.Keeping has → ∃ made, Pulling image has w made w'

theorem pullsOnce_composes (image : Image) (has : σ → Prop) :
    Conduct.Composes (PullsOnce image has) where
  rest w hkeeping := ⟨[], pulling_of_none (.nil rfl) rfl ⟨hkeeping, id⟩⟩
  andThen hfirst hnext hkeeping := by
    obtain ⟨made, hmade⟩ := hfirst hkeeping
    obtain ⟨more, hmore⟩ := hnext hmade.keeping
    exact ⟨made ++ more, hmade.append hmore⟩
  giveUp _ hkept := hkept

namespace Harness

variable {h : Harness σ} {image : Image} {has : σ → Prop}
  (hclient : h.client.KeepsImage image has)
include hclient

theorem keeping_ask (request : Request) {w : World σ} (hkeeping : w.Keeping has) :
    (h.client.ask request w).2.Keeping has ∧
      (has w.store.state → has (h.client.ask request w).2.store.state) :=
  hkeeping.settle (hclient.answers request w.clock w.store) _ _

/-- A call that does not pull the image. -/
theorem pulling_ask {request : Request} (hrequest : request ≠ .pullImage image) {w : World σ}
    (hkeeping : w.Keeping has) :
    Pulling image has w [h.client.callOf request w] (h.client.ask request w).2 := by
  apply pulling_of_none (.ask h.client request w) _ (keeping_ask hclient request hkeeping)
  exact pulls_callOf h.client hrequest w

/-- An image is there once it has been pulled. -/
theorem has_of_pulls {w : World σ} (h' : 0 < pulls image [h.client.callOf (.pullImage image) w]) :
    has (h.client.ask (.pullImage image) w).2.store.state := by
  obtain ⟨call, hcall, hpulls⟩ := List.countP_pos_iff.mp h'
  obtain ⟨reference, hexchange⟩ := Exchange.eq_of_pulls hpulls
  rw [List.mem_singleton.mp hcall] at hexchange
  have hanswer : (h.client.ask (.pullImage image) w).1 = .ok reference :=
    eq_of_heq (Exchange.asked.inj hexchange).2
  unfold Client.ask
  rw [World.store_settle]
  exact hclient.pulled w.clock w.store reference hanswer

/-- An image that is reported absent is not there, and is there once it has been pulled. -/
theorem pulling_absent {other : Image} {w : World σ} (hkeeping : w.Keeping has)
    (habsent : (h.client.ask (.imageStatus other) w).1 = .ok none) :
    Pulling image has w ([h.client.callOf (.imageStatus other) w] ++
        [h.client.callOf (.pullImage other) (h.client.ask (.imageStatus other) w).2])
      (h.client.ask (.pullImage other) (h.client.ask (.imageStatus other) w).2).2 := by
  have hstatus := pulling_ask hclient (nofun : Request.imageStatus other ≠ .pullImage image)
    hkeeping
  by_cases heq : other = image
  · subst heq
    have hpull := keeping_ask hclient (.pullImage other) hstatus.keeping
    have hnone : pulls other [h.client.callOf (.imageStatus other) w] = 0 := rfl
    have hfew : pulls other [h.client.callOf (.pullImage other)
        (h.client.ask (.imageStatus other) w).2] ≤ 1 := List.countP_le_length
    refine ⟨hstatus.calls.append (.ask h.client _ _), hpull.1, ?_, ?_, ?_⟩
    · rw [pulls_append]
      omega
    · intro hsome
      rw [pulls_append, hnone, Nat.zero_add] at hsome
      exact has_of_pulls hclient hsome
    · intro hhas
      exact absurd habsent (hclient.reported _ _ hhas)
  · apply hstatus.append
    apply pulling_ask hclient _ hstatus.keeping
    intro hsame
    exact heq (Request.pullImage.inj hsame)

theorem pullsOnce_ensureImage (other : Image) :
    Obeys (PullsOnce image has) (h.ensureImage other) := by
  intro w hkeeping
  have hrun := ensureRun h other w
  have hstatus := pulling_ask hclient (nofun : Request.imageStatus other ≠ .pullImage image)
    hkeeping
  generalize h.ensureImage other w = outcome at hrun ⊢
  cases hrun with
  | unknown _ => exact ⟨_, hstatus⟩
  | present _ => exact ⟨_, hstatus⟩
  | refused habsent _ => exact ⟨_, pulling_absent hclient hkeeping habsent⟩
  | pulled habsent _ => exact ⟨_, pulling_absent hclient hkeeping habsent⟩

theorem pullsOnce_call {request : Request} (hrequest : request ≠ .pullImage image) :
    Obeys (PullsOnce image has) (h.call request) :=
  fun _ hkeeping => ⟨_, pulling_ask hclient hrequest hkeeping⟩

/-- Whatever a harness does, it pulls an image once at most. -/
theorem conducts_pullsOnce : h.ConductsSupply (PullsOnce image has) where
  toComposes := pullsOnce_composes image has
  sleeps w span hkeeping :=
    ⟨[], pulling_of_none (.nil (World.calls_sleep w span)) rfl (hkeeping.sleep span)⟩
  alike hkept halike hkeeping := by
    obtain ⟨made, hmade⟩ := hkept hkeeping
    exact ⟨made, hmade.alike halike⟩
  tell hsandbox hkept hkeeping := by
    obtain ⟨made, hmade⟩ := hkept hkeeping
    refine ⟨_, hmade.append (pulling_ask hclient ?_ hmade.keeping)⟩
    rintro rfl
    cases hsandbox
  calls hfree := by
    apply pullsOnce_call hclient
    rintro rfl
    cases hfree
  fails id command w hkeeping := ⟨_, pulling_ask hclient (nofun : Request.execSync id command
    h.config.execSyncTimeout ≠ .pullImage image) hkeeping⟩
  stops id timeout w hkeeping := ⟨_, pulling_of_none (made_stopContainer h id timeout w) rfl
    (hkeeping.settle (hclient.stops id timeout w.clock w.store) _ _)⟩
  ensures := pullsOnce_ensureImage hclient
  creates fixture config := Obeys.bind (pullsOnce_composes image has)
    (pullsOnce_ensureImage hclient config.image) fun _ => pullsOnce_call hclient nofun

end Harness

inductive Task
  | run (scenario : Scenario)
  | act (action : Action)

namespace Bench

variable (h : Harness σ)

def work (bench : Bench σ) : Task → Bench σ
  | .run scenario => { bench with world := (h.run scenario bench.world).2 }
  | .act action => (bench.perform h action).2

def workAll (bench : Bench σ) (tasks : List Task) : Bench σ := tasks.foldl (work h) bench

theorem workAll_concat (bench : Bench σ) (tasks : List Task) (task : Task) :
    bench.workAll h (tasks ++ [task]) = (bench.workAll h tasks).work h task := by
  unfold workAll
  rw [List.foldl_append, List.foldl_cons, List.foldl_nil]

variable {h} {R : Conduct σ} (hR : h.ConductsSupply R)
include hR

theorem conducts_work (bench : Bench σ) (task : Task) :
    ∃ outcome, R bench.world outcome (bench.work h task).world := by
  cases task with
  | run scenario => exact ⟨_, hR.budgets.run scenario bench.world⟩
  | act action => exact ⟨_, hR.budgets.perform bench action⟩

end Bench

end Check

/-- A client with an image service that keeps what is pulled. It runs sandboxes, creates containers
and fails in all else. -/
def Cri.Client.registry : Client (List Image) where
  answer request _ store :=
    match request with
    | .runSandbox _ => { value := .ok ⟨"sandbox"⟩, store := store }
    | .imageStatus image =>
      { value := .ok (if image ∈ store.state then some {} else none), store := store }
    | .pullImage image =>
      { value := .ok image.reference, store := { store with state := image :: store.state } }
    | .createContainer .. => { value := .ok ⟨"container"⟩, store := store }
    | _ => { value := .error "unavailable", store := store }
  stop _ _ _ store := { value := none, store := store }

theorem Cri.Client.keepsImage_registry (image : Image) :
    Client.registry.KeepsImage image (image ∈ ·) where
  answers request now store := by
    cases request with
    | pullImage other => exact ⟨List.mem_cons_of_mem other, nofun⟩
    | _ => exact ⟨id, nofun⟩
  stops _ _ _ _ := ⟨id, nofun⟩
  pulled _ _ _ _ := List.mem_cons_self
  reported now store hhas := by
    have hthere : (if image ∈ store.state then some ({} : ImageStatus) else none) ≠ none := by
      rw [if_pos hhas]
      exact nofun
    intro habsent
    exact hthere (Except.ok.inj habsent)

namespace Check

def registry : Harness (List Image) := ⟨.registry, {}⟩

def registryWorld : World (List Image) :=
  World.start ⟨[], []⟩ [⟨"docker.io/library/redis:alpine"⟩]

def registryTasks : List Task := [.run .createContainer, .act (.ensureImage ⟨"busybox:1.28"⟩),
  .run .createExtended, .run .startContainer]

structure Harness.Provides (h : Harness σ) (bench : Bench σ) (tasks : List Task) : Prop where
  /-- In each task a container is created only behind what supplies its image, and an image is
  pulled only behind a report that it is absent. -/
  each (before after : List Task) (task : Task) : tasks = before ++ task :: after →
    ∃ made, (bench.workAll h before).world.Made made (bench.workAll h (before ++ [task])).world ∧
      Provisioned (made.map Call.exchange)
  /-- An image that stays is pulled once at most in all tasks, and not at all if it was there. -/
  once (image : Image) (has : σ → Prop) : h.client.KeepsImage image has →
    bench.world.Keeping has → ∃ made, bench.world.Made made (bench.workAll h tasks).world ∧
      pulls image made ≤ 1 ∧ (has bench.world.store.state → pulls image made = 0)

theorem pulling_workAll {h : Harness σ} {image : Image} {has : σ → Prop}
    (hclient : h.client.KeepsImage image has) (bench : Bench σ) (tasks : List Task)
    (hkeeping : bench.world.Keeping has) :
    ∃ made, Pulling image has bench.world made (bench.workAll h tasks).world := by
  induction tasks generalizing bench with
  | nil => exact ⟨[], pulling_of_none (.nil rfl) rfl ⟨hkeeping, id⟩⟩
  | cons task tasks ih =>
    obtain ⟨outcome, hkept⟩ := Bench.conducts_work (h.conducts_pullsOnce hclient) bench task
    obtain ⟨made, hmade⟩ := hkept hkeeping
    obtain ⟨more, hmore⟩ := ih (bench.work h task) hmade.keeping
    exact ⟨made ++ more, hmade.append hmore⟩

/-- Whatever scenarios and actions follow one another, images are provisioned when they are
needed. -/
theorem Harness.provides (h : Harness σ) (bench : Bench σ) (tasks : List Task) :
    h.Provides bench tasks where
  each before after task _ := by
    rw [Bench.workAll_concat]
    obtain ⟨outcome, made, hmade, hprovisioned, -⟩ :=
      Bench.conducts_work h.conducts_provisions (bench.workAll h before) task
    exact ⟨made, hmade, hprovisioned⟩
  once image has hclient hkeeping := by
    obtain ⟨made, hmade⟩ := pulling_workAll hclient bench tasks hkeeping
    exact ⟨made, hmade.calls, hmade.once, fun hhas => (hmade.spares hhas).1⟩

/-- What is pulled for the first container is there for all others, and the image of an extended
container has been there from the start. -/
theorem Harness.provides_registry :
    let bench : Bench (List Image) := { world := registryWorld }
    (∀ image, registry.client.KeepsImage image (image ∈ ·)) ∧
      (∀ image, bench.world.Keeping (image ∈ ·)) ∧ registry.Provides bench registryTasks ∧
      pulls ⟨"busybox:1.28"⟩ (bench.workAll registry registryTasks).world.calls = 1 ∧
      pulls ⟨"docker.io/library/redis:alpine"⟩
        (bench.workAll registry registryTasks).world.calls = 0 :=
  ⟨Client.keepsImage_registry, fun _ => nofun, registry.provides _ _, by decide +kernel,
    by decide +kernel⟩

end Check

end ContainerCheck
