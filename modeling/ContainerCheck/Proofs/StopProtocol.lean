import Mathlib.Data.List.MinMax
import ContainerCheck.Check.Lifecycle
import ContainerCheck.Check.StopProtocol

namespace ContainerCheck.Check

open ContainerCheck.Cri

/-- What a stop returns that hears how its call ended. -/
inductive Heard : Ending → Except Error Unit → Prop
  | stopped : Heard (.returned (.ok ())) (.ok ())
  | failed (message : String) :
    Heard (.returned (.error message)) (.error (.runtime .stopContainer message))
  | lost : Heard .lost (.error (.runtime .stopContainer "stop call ended without a result"))

theorem heard_endingResult (ending : Ending) : Heard ending (endingResult ending) := by
  cases ending with
  | returned result =>
    cases result with
    | error message => exact .failed message
    | ok value => exact .stopped
  | lost => exact .lost

theorem Heard.eq_endingResult {ending : Ending} {result : Except Error Unit}
    (h : Heard ending result) : result = endingResult ending := by
  cases h <;> rfl

/-- How far a stop can be at some time: what has become of its call, what it has returned, and what
its channel holds. -/
inductive StopStage (clock : Nat) (wait : StopWait) :
    Option (Nat × Ending) → Option (Nat × Except Error Unit) → StopChannel → Prop
  | pending (hclock : clock ≤ wait.deadline) : StopStage clock wait none none .empty
  | ended {moment : Nat} {ending : Ending} (hstarted : wait.started ≤ moment)
    (hmoment : moment ≤ clock) (hclock : clock ≤ wait.deadline) :
    StopStage clock wait (some (moment, ending)) none (.send ending .empty)
  | heard {moment now : Nat} {ending : Ending} {result : Except Error Unit}
    (hstarted : wait.started ≤ moment) (hmoment : moment ≤ now) (hnow : now ≤ wait.deadline)
    (hclock : now ≤ clock) (hresult : Heard ending result) :
    StopStage clock wait (some (moment, ending)) (some (now, result)) .dropped
  | abandoned (hclock : wait.deadline ≤ clock) :
    StopStage clock wait none (some (wait.deadline, .error (.timeout
      ("stop container " ++ wait.id.text) wait.timeout "StopContainer still pending"))) .dropped
  | late {moment : Nat} {ending : Ending} (hmoment : wait.deadline ≤ moment)
    (hclock : moment ≤ clock) :
    StopStage clock wait (some (moment, ending)) (some (wait.deadline, .error (.timeout
      ("stop container " ++ wait.id.text) wait.timeout "StopContainer still pending"))) .dropped

structure StopTriple (place clock : Nat) (wait : StopWait) (call : StopCall)
    (channel : StopChannel) : Prop where
  id : call.id = wait.id
  timeout : call.timeout = wait.timeout
  issued : call.issued = wait.started
  sender : call.sender = place
  receiver : wait.receiver = place
  started : wait.started ≤ clock
  stage : StopStage clock wait call.ended wait.returned channel

namespace Stops

variable {σ : Type} {effect : StopEffect σ} {stops : Stops σ} {event : StopEvent}

inductive Steps (effect : StopEffect σ) (stops : Stops σ) : StopEvent → Stops σ → Prop
  | start (id : ContainerId) (timeout : Nat) :
    Steps effect stops (.start id timeout) (stops.start id timeout)
  | finish {thread : Nat} {call : StopCall} (ending : Ending)
    (hcall : stops.calls[thread]? = some call) (hopen : call.ended = none) :
    Steps effect stops (.finish thread ending) (stops.finish effect thread call ending)
  | receive {place : Nat} {wait : StopWait} {ending : Ending}
    (hwait : stops.waits[place]? = some wait) (hopen : wait.returned = none)
    (hheard : stops.heard? wait = some ending) :
    Steps effect stops (.receive place) (stops.conclude place wait (endingResult ending))
  | expire {place : Nat} {wait : StopWait} (hwait : stops.waits[place]? = some wait)
    (hopen : wait.returned = none) (hsilent : stops.heard? wait = none)
    (hlate : wait.deadline ≤ stops.clock) :
    Steps effect stops (.expire place)
      (stops.conclude place wait (stopTimeout wait.id wait.timeout))
  | pass {span : Nat} (hallows : ∀ wait ∈ stops.waits, wait.allows (stops.clock + span) = true) :
    Steps effect stops (.pass span) { stops with clock := stops.clock + span }
  | idle {event : StopEvent} (hnone : event.started? = none) : Steps effect stops event stops

theorem steps_step (effect : StopEffect σ) (stops : Stops σ) (event : StopEvent) :
    Steps effect stops event (stops.step effect event) := by
  cases event with
  | start id timeout => exact .start id timeout
  | finish thread ending =>
    simp only [step]
    split
    · exact .idle rfl
    · next call hcall =>
      split
      · exact .idle rfl
      · next hopen => exact .finish ending hcall (Option.not_isSome_iff_eq_none.mp hopen)
  | receive place =>
    simp only [step]
    split
    · exact .idle rfl
    · next wait hwait =>
      split
      · next ending hopen hheard => exact .receive hwait hopen hheard
      · exact .idle rfl
  | expire place =>
    simp only [step]
    split
    · exact .idle rfl
    · next wait hwait =>
      split
      · next hopen hsilent =>
        split
        · next hlate => exact .expire hwait hopen hsilent hlate
        · exact .idle rfl
      · exact .idle rfl
  | pass span =>
    simp only [step]
    split
    · next hallows => exact .pass (List.all_eq_true.mp hallows)
    · exact .idle rfl

structure Sound (stops : Stops σ) : Prop where
  calls : stops.calls.length = stops.waits.length
  channels : stops.channels.length = stops.waits.length
  triple : ∀ {place wait call channel}, stops.waits[place]? = some wait →
    stops.calls[place]? = some call → stops.channels[place]? = some channel →
      StopTriple place stops.clock wait call channel

theorem getElem?_concat_eq_some {α : Type} {xs : List α} {x y : α} {i : Nat}
    (h : (xs ++ [x])[i]? = some y) : xs[i]? = some y ∨ i = xs.length ∧ x = y := by
  rcases Nat.lt_trichotomy i xs.length with hlt | rfl | hgt
  · rw [List.getElem?_append_left hlt] at h
    exact .inl h
  · rw [List.getElem?_concat_length] at h
    exact .inr ⟨rfl, Option.some.inj h⟩
  · rw [List.getElem?_eq_none (by simp; omega)] at h
    cases h

theorem set_of_getElem? {α : Type} {xs : List α} {x : α} {i : Nat} (h : xs[i]? = some x) :
    xs.set i x = xs := by
  obtain ⟨hi, rfl⟩ := List.getElem?_eq_some_iff.mp h
  exact List.set_getElem_self hi

theorem modify_of_getElem? {α : Type} {xs : List α} {x : α} {i : Nat} (h : xs[i]? = some x)
    (f : α → α) : xs.modify i f = xs.set i (f x) := by
  rw [List.modify_eq_set_getElem?, h]
  rfl

namespace Sound

variable (hs : stops.Sound)
include hs

theorem exists_triple {place : Nat} {wait : StopWait} (hwait : stops.waits[place]? = some wait) :
    ∃ call channel, stops.calls[place]? = some call ∧ stops.channels[place]? = some channel ∧
      StopTriple place stops.clock wait call channel := by
  have hplace := (List.getElem?_eq_some_iff.mp hwait).1
  have hcall := List.getElem?_eq_getElem (hs.calls ▸ hplace)
  have hchannel := List.getElem?_eq_getElem (hs.channels ▸ hplace)
  exact ⟨_, _, hcall, hchannel, hs.triple hwait hcall hchannel⟩

theorem exists_wait {place : Nat} {call : StopCall} (hcall : stops.calls[place]? = some call) :
    ∃ wait, stops.waits[place]? = some wait := by
  have hplace := (List.getElem?_eq_some_iff.mp hcall).1
  exact ⟨_, List.getElem?_eq_getElem (hs.calls ▸ hplace)⟩

/-- One stop goes on, and the others stay as they are. -/
theorem replace {after : Stops σ} {place : Nat} {wait : StopWait} {call : StopCall}
    {channel : StopChannel} (hclock : after.clock = stops.clock)
    (hwaits : after.waits = stops.waits.set place wait)
    (hcalls : after.calls = stops.calls.set place call)
    (hchannels : after.channels = stops.channels.set place channel)
    (htriple : StopTriple place stops.clock wait call channel) : after.Sound where
  calls := by
    rw [hcalls, hwaits, List.length_set, List.length_set]
    exact hs.calls
  channels := by
    rw [hchannels, hwaits, List.length_set, List.length_set]
    exact hs.channels
  triple := by
    intro other wait' call' channel' hwait' hcall' hchannel'
    rw [hwaits] at hwait'
    rw [hcalls] at hcall'
    rw [hchannels] at hchannel'
    rw [hclock]
    by_cases heq : place = other
    · subst heq
      have hplace : place < stops.waits.length := by
        have := (List.getElem?_eq_some_iff.mp hwait').1
        rwa [List.length_set] at this
      rw [List.getElem?_set_self hplace] at hwait'
      rw [List.getElem?_set_self (hs.calls ▸ hplace)] at hcall'
      rw [List.getElem?_set_self (hs.channels ▸ hplace)] at hchannel'
      cases hwait'
      cases hcall'
      cases hchannel'
      exact htriple
    · rw [List.getElem?_set_ne heq] at hwait' hcall' hchannel'
      exact hs.triple hwait' hcall' hchannel'

theorem start (id : ContainerId) (timeout : Nat) : (stops.start id timeout).Sound where
  calls := by simp [Stops.start, hs.calls]
  channels := by simp [Stops.start, hs.channels]
  triple := by
    intro place wait call channel hwait hcall hchannel
    rcases getElem?_concat_eq_some hwait with hwait | ⟨rfl, rfl⟩
    · have hplace := (List.getElem?_eq_some_iff.mp hwait).1
      refine hs.triple hwait ?_ ?_
      · rw [Stops.start, List.getElem?_append_left (hs.calls ▸ hplace)] at hcall
        exact hcall
      · rw [Stops.start, List.getElem?_append_left (hs.channels ▸ hplace)] at hchannel
        exact hchannel
    · simp only [Stops.start] at hcall hchannel
      rw [← hs.calls, List.getElem?_concat_length] at hcall
      rw [← hs.channels, List.getElem?_concat_length] at hchannel
      cases hcall
      cases hchannel
      exact ⟨rfl, rfl, rfl, hs.channels, hs.channels, Nat.le_refl _,
        .pending (Nat.le_add_right _ _)⟩

theorem finish {thread : Nat} {call : StopCall} (ending : Ending)
    (hcall : stops.calls[thread]? = some call) (hopen : call.ended = none) :
    (stops.finish effect thread call ending).Sound := by
  obtain ⟨wait, hwait⟩ := hs.exists_wait hcall
  obtain ⟨call', channel, hcall', hchannel, ht⟩ := hs.exists_triple hwait
  cases hcall.symm.trans hcall'
  have hchannels : (stops.finish effect thread call ending).channels =
      stops.channels.set thread (channel.send ending) := by
    simp only [Stops.finish]
    rw [ht.sender, modify_of_getElem? hchannel]
  refine hs.replace rfl (set_of_getElem? hwait).symm rfl hchannels
    ⟨ht.id, ht.timeout, ht.issued, ht.sender, ht.receiver, ht.started, ?_⟩
  have hstage := ht.stage
  rw [hopen] at hstage
  generalize wait.returned = returned at hstage ⊢
  cases hstage with
  | pending hclock => exact .ended ht.started (Nat.le_refl _) hclock
  | abandoned hclock => exact .late hclock (Nat.le_refl _)

/-- What one who waits finds in the channel is how their own call ended. -/
theorem heard? {place : Nat} {wait : StopWait} {call : StopCall}
    (hwait : stops.waits[place]? = some wait) (hcall : stops.calls[place]? = some call)
    (hopen : wait.returned = none) : stops.heard? wait = call.ended.map Prod.snd := by
  obtain ⟨call', channel, hcall', hchannel, ht⟩ := hs.exists_triple hwait
  cases hcall.symm.trans hcall'
  have hfound : stops.heard? wait = channel.heard? := by
    unfold Stops.heard?
    rw [ht.receiver, hchannel]
    rfl
  have hstage := ht.stage
  rw [hopen] at hstage
  rw [hfound]
  generalize call.ended = ended at hstage ⊢
  cases hstage with
  | pending hclock => rfl
  | ended hstarted hmoment hclock => exact StopChannel.heard?_send_empty _

/-- A stop returns. -/
theorem conclude {place : Nat} {wait : StopWait} {call : StopCall} {result : Except Error Unit}
    (hwait : stops.waits[place]? = some wait) (hcall : stops.calls[place]? = some call)
    (hstage : StopStage stops.clock { wait with returned := some (stops.clock, result) } call.ended
      (some (stops.clock, result)) .dropped) : (stops.conclude place wait result).Sound := by
  obtain ⟨call', channel, hcall', hchannel, ht⟩ := hs.exists_triple hwait
  cases hcall.symm.trans hcall'
  have hchannels : (stops.conclude place wait result).channels =
      stops.channels.set place .dropped := by
    simp only [Stops.conclude]
    rw [ht.receiver, modify_of_getElem? hchannel]
  exact hs.replace rfl rfl (set_of_getElem? hcall).symm hchannels
    ⟨ht.id, ht.timeout, ht.issued, ht.sender, ht.receiver, ht.started, hstage⟩

theorem receive {place : Nat} {wait : StopWait} {ending : Ending}
    (hwait : stops.waits[place]? = some wait) (hopen : wait.returned = none)
    (hheard : stops.heard? wait = some ending) :
    (stops.conclude place wait (endingResult ending)).Sound := by
  obtain ⟨call, channel, hcall, -, ht⟩ := hs.exists_triple hwait
  rw [hs.heard? hwait hcall hopen] at hheard
  refine hs.conclude hwait hcall ?_
  have hstage := ht.stage
  rw [hopen] at hstage
  generalize call.ended = ended at hstage hheard ⊢
  cases hstage with
  | pending hclock => cases hheard
  | ended hstarted hmoment hclock =>
    cases hheard
    exact .heard hstarted hmoment hclock (Nat.le_refl _) (heard_endingResult _)

theorem expire {place : Nat} {wait : StopWait} (hwait : stops.waits[place]? = some wait)
    (hopen : wait.returned = none) (hsilent : stops.heard? wait = none)
    (hlate : wait.deadline ≤ stops.clock) :
    (stops.conclude place wait (stopTimeout wait.id wait.timeout)).Sound := by
  obtain ⟨call, channel, hcall, -, ht⟩ := hs.exists_triple hwait
  rw [hs.heard? hwait hcall hopen] at hsilent
  refine hs.conclude hwait hcall ?_
  have hstage := ht.stage
  rw [hopen] at hstage
  generalize call.ended = ended at hstage hsilent ⊢
  cases hstage with
  | pending hclock =>
    have hnow : wait.deadline = stops.clock := Nat.le_antisymm hlate hclock
    rw [← hnow]
    exact .abandoned (Nat.le_refl _)
  | ended hstarted hmoment hclock => cases hsilent

theorem pass {span : Nat}
    (hallows : ∀ wait ∈ stops.waits, wait.allows (stops.clock + span) = true) :
    Sound { stops with clock := stops.clock + span } where
  calls := hs.calls
  channels := hs.channels
  triple := by
    intro place wait call channel hwait hcall hchannel
    have ht := hs.triple hwait hcall hchannel
    have hpass := Nat.le_add_right stops.clock span
    refine ⟨ht.id, ht.timeout, ht.issued, ht.sender, ht.receiver, ht.started.trans hpass, ?_⟩
    have hallowed := hallows wait (List.mem_of_getElem? hwait)
    have hstage := ht.stage
    have htime : wait.returned = none → stops.clock + span ≤ wait.deadline := by
      intro hopen
      simpa [StopWait.allows, hopen] using hallowed
    generalize wait.returned = returned at hstage htime ⊢
    generalize call.ended = ended at hstage ⊢
    cases hstage with
    | pending => exact .pending (htime rfl)
    | ended hstarted hmoment => exact .ended hstarted (hmoment.trans hpass) (htime rfl)
    | heard hstarted hmoment hnow hclock hresult =>
      exact .heard hstarted hmoment hnow (hclock.trans hpass) hresult
    | abandoned hclock => exact .abandoned (hclock.trans hpass)
    | late hmoment hclock => exact .late hmoment (hclock.trans hpass)

/-- Every event keeps each stop with its own call. -/
theorem step (event : StopEvent) : (stops.step effect event).Sound := by
  have hsteps := steps_step effect stops event
  generalize stops.step effect event = after at hsteps ⊢
  cases hsteps with
  | start id timeout => exact hs.start id timeout
  | finish ending hcall hopen => exact hs.finish ending hcall hopen
  | receive hwait hopen hheard => exact hs.receive hwait hopen hheard
  | expire hwait hopen hsilent hlate => exact hs.expire hwait hopen hsilent hlate
  | pass hallows => exact hs.pass hallows
  | idle => exact hs

end Sound

theorem run_append (effect : StopEffect σ) (state : σ) (events more : List StopEvent) :
    run effect state (events ++ more) = more.foldl (step effect) (run effect state events) :=
  List.foldl_append

theorem sound_foldl (hs : stops.Sound) (events : List StopEvent) :
    (events.foldl (step effect) stops).Sound := by
  induction events generalizing stops with
  | nil => exact hs
  | cons event events ih => exact ih (hs.step event)

theorem sound_run (effect : StopEffect σ) (state : σ) (events : List StopEvent) :
    (run effect state events).Sound := by
  refine sound_foldl ⟨rfl, rfl, ?_⟩ events
  intro place wait call channel hwait
  cases hwait

/-- A stop that has returned is not heard of again. -/
theorem waits_step {place : Nat} {wait : StopWait} (hwait : stops.waits[place]? = some wait)
    (hover : wait.returned ≠ none) (event : StopEvent) :
    (stops.step effect event).waits[place]? = some wait := by
  have hsteps := steps_step effect stops event
  generalize stops.step effect event = after at hsteps ⊢
  have hset {other : Nat} {wait' : StopWait} (result : Except Error Unit)
      (hwait' : stops.waits[other]? = some wait') (hopen : wait'.returned = none) :
      (stops.conclude other wait' result).waits[place]? = some wait := by
    have hne : other ≠ place := by
      rintro rfl
      cases hwait.symm.trans hwait'
      exact hover hopen
    exact (List.getElem?_set_ne hne).trans hwait
  cases hsteps with
  | start id timeout =>
    exact (List.getElem?_append_left (List.getElem?_eq_some_iff.mp hwait).1).trans hwait
  | finish => exact hwait
  | receive hwait' hopen => exact hset _ hwait' hopen
  | expire hwait' hopen => exact hset _ hwait' hopen
  | pass => exact hwait
  | idle => exact hwait

theorem waits_foldl {place : Nat} {wait : StopWait} (hwait : stops.waits[place]? = some wait)
    (hover : wait.returned ≠ none) (events : List StopEvent) :
    (events.foldl (step effect) stops).waits[place]? = some wait := by
  induction events generalizing stops with
  | nil => exact hwait
  | cons event events ih => exact ih (waits_step hwait hover event)

/-- A call ends while its stop is waited for, which returns nothing but how it ended. -/
def HearsOf (stops : Stops σ) (place : Nat) (ending : Ending) : Prop :=
  ∃ wait call moment, stops.waits[place]? = some wait ∧ stops.calls[place]? = some call ∧
    call.ended = some (moment, ending) ∧
      (wait.returned = none ∨ ∃ now result, wait.returned = some (now, result) ∧
        Heard ending result)

theorem hearsOf_step {place : Nat} {ending : Ending} (hs : stops.Sound)
    (h : stops.HearsOf place ending) (event : StopEvent) :
    (stops.step effect event).HearsOf place ending := by
  obtain ⟨wait, call, moment, hwait, hcall, hended, hresult⟩ := h
  have hplace := (List.getElem?_eq_some_iff.mp hwait).1
  have hsteps := steps_step effect stops event
  generalize stops.step effect event = after at hsteps ⊢
  cases hsteps with
  | start id timeout =>
    have hplace' := (List.getElem?_eq_some_iff.mp hcall).1
    exact ⟨wait, call, moment, (List.getElem?_append_left hplace).trans hwait,
      (List.getElem?_append_left hplace').trans hcall, hended, hresult⟩
  | @finish thread call' ending' hcall' hopen =>
    have hne : thread ≠ place := by
      rintro rfl
      cases hcall.symm.trans hcall'
      rw [hended] at hopen
      cases hopen
    exact ⟨wait, call, moment, hwait, (List.getElem?_set_ne hne).trans hcall, hended, hresult⟩
  | @receive other wait' ending' hwait' hopen hheard =>
    by_cases heq : other = place
    · subst heq
      cases hwait.symm.trans hwait'
      rw [hs.heard? hwait hcall hopen, hended] at hheard
      cases hheard
      exact ⟨_, call, moment, List.getElem?_set_self hplace, hcall, hended,
        .inr ⟨_, _, rfl, heard_endingResult ending⟩⟩
    · exact ⟨wait, call, moment, (List.getElem?_set_ne heq).trans hwait, hcall, hended, hresult⟩
  | @expire other wait' hwait' hopen hsilent hlate =>
    have hne : other ≠ place := by
      rintro rfl
      cases hwait.symm.trans hwait'
      rw [hs.heard? hwait hcall hopen, hended] at hsilent
      cases hsilent
    exact ⟨wait, call, moment, (List.getElem?_set_ne hne).trans hwait, hcall, hended, hresult⟩
  | pass => exact ⟨wait, call, moment, hwait, hcall, hended, hresult⟩
  | idle => exact ⟨wait, call, moment, hwait, hcall, hended, hresult⟩

theorem hearsOf_foldl {place : Nat} {ending : Ending} (hs : stops.Sound)
    (h : stops.HearsOf place ending) (events : List StopEvent) :
    (events.foldl (step effect) stops).HearsOf place ending := by
  induction events generalizing stops with
  | nil => exact h
  | cons event events ih => exact ih (hs.step event) (hearsOf_step hs h event)

theorem started_step (effect : StopEffect σ) (stops : Stops σ) (event : StopEvent) :
    (stops.step effect event).calls.map (fun call => (call.id, call.timeout)) =
      stops.calls.map (fun call => (call.id, call.timeout)) ++ event.started?.toList := by
  have hsteps := steps_step effect stops event
  generalize stops.step effect event = after at hsteps ⊢
  cases hsteps with
  | start id timeout => simp [start, StopEvent.started?]
  | @finish thread call ending hcall hopen =>
    have hsame : (stops.calls.map fun call => (call.id, call.timeout))[thread]? =
        some (call.id, call.timeout) := by
      rw [List.getElem?_map, hcall]
      rfl
    simp only [finish, List.map_set, StopEvent.started?, Option.toList_none, List.append_nil]
    exact set_of_getElem? hsame
  | receive => simp [conclude, StopEvent.started?]
  | expire => simp [conclude, StopEvent.started?]
  | pass => simp [StopEvent.started?]
  | idle hnone => simp [hnone]

theorem started_run (effect : StopEffect σ) (state : σ) (events : List StopEvent) :
    (run effect state events).calls.map (fun call => (call.id, call.timeout)) =
      events.filterMap StopEvent.started? := by
  induction events using List.reverseRecOn with
  | nil => rfl
  | append_singleton events event ih =>
    rw [run_append, List.foldl_cons, List.foldl_nil, started_step, ih, List.filterMap_append]
    congr 1

/-- Among the calls that a test picks there is one more when it picks a changed one. -/
theorem perm_filter_set {α : Type} {p : α → Bool} {xs : List α} {i : Nat} {x y : α}
    (h : xs[i]? = some x) (hx : p x = false) (hy : p y = true) :
    ((xs.set i y).filter p).Perm (y :: xs.filter p) := by
  induction xs generalizing i with
  | nil => cases h
  | cons z xs ih =>
    cases i with
    | zero =>
      cases h
      simp [hx, hy]
    | succ i =>
      have hrest := ih h
      cases hz : p z with
      | true =>
        simp only [List.set_cons_succ, List.filter_cons, hz, if_true]
        exact (hrest.cons z).trans (.swap y z _)
      | false => simpa [hz] using hrest

/-- Each call that has ended has had its effect once, and no other call has. -/
structure Effected (effect : StopEffect σ) (state : σ) (stops : Stops σ) : Prop where
  state : stops.state = stops.effects.foldl (fun state call => call.apply effect state) state
  once : stops.effects.Perm (stops.calls.filter fun call => call.ended.isSome)

theorem effected_step {state : σ} (h : Effected effect state stops) (event : StopEvent) :
    Effected effect state (stops.step effect event) := by
  have hsteps := steps_step effect stops event
  generalize stops.step effect event = after at hsteps ⊢
  cases hsteps with
  | start id timeout => exact ⟨h.state, by simpa [start] using h.once⟩
  | @finish thread call ending hcall hopen =>
    constructor
    · simp only [finish, List.foldl_append, List.foldl_cons, List.foldl_nil, ← h.state]
    · have hset := perm_filter_set (p := fun call => call.ended.isSome)
        (y := { call with ended := some (stops.clock, ending) }) hcall (by simp [hopen]) rfl
      exact (List.perm_append_singleton _ _).trans ((h.once.cons _).trans hset.symm)
  | receive => exact ⟨h.state, h.once⟩
  | expire => exact ⟨h.state, h.once⟩
  | pass => exact ⟨h.state, h.once⟩
  | idle => exact h

theorem effected_run (effect : StopEffect σ) (state : σ) (events : List StopEvent) :
    Effected effect state (run effect state events) := by
  induction events using List.reverseRecOn with
  | nil => exact ⟨rfl, .nil⟩
  | append_singleton events event ih =>
    rw [run_append]
    exact effected_step ih event

def waiting (stops : Stops σ) : Nat := stops.waits.countP fun wait => wait.returned.isNone

theorem waiting_conclude {place : Nat} {wait : StopWait}
    (hwait : stops.waits[place]? = some wait) (hopen : wait.returned = none)
    (result : Except Error Unit) : (stops.conclude place wait result).waiting < stops.waiting := by
  obtain ⟨hplace, hget⟩ := List.getElem?_eq_some_iff.mp hwait
  have hpos : 0 < stops.waits.countP fun wait => wait.returned.isNone :=
    List.countP_pos_iff.mpr ⟨wait, List.mem_of_getElem? hwait, by simp [hopen]⟩
  simp only [waiting, conclude, List.countP_set hplace, hget, hopen]
  simp only [Option.isNone_none, Option.isNone_some, if_true, Bool.false_eq_true, if_false]
  omega

/-- Of those who wait there is one with the first deadline. -/
theorem exists_first (h : 0 < stops.waiting) :
    ∃ (place : Nat) (wait : StopWait), stops.waits[place]? = some wait ∧ wait.returned = none ∧
      ∀ other ∈ stops.waits, other.returned = none → wait.deadline ≤ other.deadline := by
  have hsome : stops.waits.filter (fun wait => wait.returned.isNone) ≠ [] := by
    intro hnil
    rw [waiting, List.countP_eq_length_filter, hnil] at h
    exact Nat.lt_irrefl 0 h
  cases hfirst : (stops.waits.filter fun wait => wait.returned.isNone).argmin
      StopWait.deadline with
  | none => exact absurd (List.argmin_eq_none.mp hfirst) hsome
  | some wait =>
    obtain ⟨hmem, hopen⟩ := List.mem_filter.mp (List.argmin_mem hfirst)
    obtain ⟨place, hwait⟩ := List.mem_iff_getElem?.mp hmem
    refine ⟨place, wait, hwait, Option.isNone_iff_eq_none.mp hopen, ?_⟩
    intro other hother hothers
    refine List.le_of_mem_argmin (List.mem_filter.mpr ⟨hother, ?_⟩) hfirst
    rw [hothers]
    rfl

end Stops

def StopEvent.ofWaiters : StopEvent → Bool
  | receive _ | expire _ | pass _ => true
  | start .. | finish .. => false

namespace Stops

variable {σ : Type} {effect : StopEffect σ} {stops : Stops σ}

/-- Once its deadline has come a stop can return, whether its call has ended or not. -/
theorem exists_return (effect : StopEffect σ) {place : Nat} {wait : StopWait}
    (hwait : stops.waits[place]? = some wait) (hopen : wait.returned = none)
    (hlate : wait.deadline ≤ stops.clock) :
    ∃ event : StopEvent, event.ofWaiters = true ∧
      (stops.step effect event).waiting < stops.waiting := by
  cases hheard : stops.heard? wait with
  | some ending =>
    refine ⟨.receive place, rfl, ?_⟩
    simp only [step, hwait, hopen, hheard]
    exact waiting_conclude hwait hopen _
  | none =>
    refine ⟨.expire place, rfl, ?_⟩
    simp only [step, hwait, hopen, hheard, hlate, if_true]
    exact waiting_conclude hwait hopen _

/-- Time can pass up to the first deadline. -/
theorem step_pass (effect : StopEffect σ) {moment : Nat} (hclock : stops.clock ≤ moment)
    (hfirst : ∀ wait ∈ stops.waits, wait.returned = none → moment ≤ wait.deadline) :
    stops.step effect (.pass (moment - stops.clock)) = { stops with clock := moment } := by
  have hmoment : stops.clock + (moment - stops.clock) = moment := Nat.add_sub_cancel' hclock
  have hallows : (stops.waits.all fun wait => wait.allows moment) = true := by
    rw [List.all_eq_true]
    intro wait hwait
    unfold StopWait.allows
    cases hreturned : wait.returned with
    | none => simpa using hfirst wait hwait hreturned
    | some result => rfl
  simp only [step, hmoment, hallows, if_true]

theorem exists_returns (effect : StopEffect σ) (hs : stops.Sound) (h : 0 < stops.waiting) :
    ∃ events : List StopEvent, (∀ event ∈ events, event.ofWaiters = true) ∧
      (events.foldl (step effect) stops).waiting < stops.waiting := by
  obtain ⟨place, wait, hwait, hopen, hfirst⟩ := exists_first h
  obtain ⟨call, channel, hcall, hchannel, ht⟩ := hs.exists_triple hwait
  have hearly : stops.clock ≤ wait.deadline := by
    have hstage := ht.stage
    rw [hopen] at hstage
    generalize call.ended = ended at hstage
    cases hstage with
    | pending hclock => exact hclock
    | ended hstarted hmoment hclock => exact hclock
  have hwait' : { stops with clock := wait.deadline }.waits[place]? = some wait := hwait
  obtain ⟨event, hevent, hless⟩ := exists_return effect hwait' hopen (Nat.le_refl _)
  refine ⟨[.pass (wait.deadline - stops.clock), event], ?_, ?_⟩
  · exact List.forall_mem_cons.mpr ⟨rfl, List.forall_mem_singleton.mpr hevent⟩
  · rw [List.foldl_cons, step_pass effect hearly hfirst]
    exact hless

theorem exists_allReturn (effect : StopEffect σ) (hs : stops.Sound) :
    ∃ events : List StopEvent, (∀ event ∈ events, event.ofWaiters = true) ∧
      (events.foldl (step effect) stops).waiting = 0 := by
  generalize hn : stops.waiting = n
  induction n using Nat.strongRecOn generalizing stops with
  | ind n ih =>
    rcases Nat.eq_zero_or_pos n with rfl | hpos
    · exact ⟨[], by simp, hn⟩
    · obtain ⟨events, hevents, hless⟩ := exists_returns effect hs (hn ▸ hpos)
      obtain ⟨more, hmore, hnone⟩ := ih _ (hn ▸ hless) (sound_foldl hs events) rfl
      refine ⟨events ++ more, ?_, by rw [List.foldl_append]; exact hnone⟩
      intro event hevent
      rcases List.mem_append.mp hevent with hmem | hmem
      · exact hevents event hmem
      · exact hmore event hmem

theorem state_finish (effect : StopEffect σ) {thread : Nat} {call : StopCall} (ending : Ending)
    (hcall : stops.calls[thread]? = some call) (hopen : call.ended = none) :
    (stops.step effect (.finish thread ending)).state =
      effect call.id call.timeout ending stops.state := by
  simp only [step, hcall, hopen]
  rfl

theorem waits_finish (effect : StopEffect σ) (stops : Stops σ) (thread : Nat) (ending : Ending) :
    (stops.step effect (.finish thread ending)).waits = stops.waits := by
  simp only [step]
  split
  · rfl
  · split
    · rfl
    · rfl

end Stops

/-- A stop gives what its harness alone would give, unless its call ends just at the deadline. -/
theorem StopStage.result_eq {τ : Type} (h : Harness τ) (w : World τ) {clock : Nat}
    {wait : StopWait} {ended : Option (Nat × Ending)} {moment : Nat} {result : Except Error Unit}
    {channel : StopChannel} (hstage : StopStage clock wait ended (some (moment, result)) channel)
    (hvalue : (h.client.stop wait.id wait.timeout w.clock w.store).value = ended.map Prod.snd)
    (htook : ∀ last ∈ ended,
      last.1 = wait.started + (h.client.stop wait.id wait.timeout w.clock w.store).took ∧
        last.1 ≠ wait.deadline) :
    result = (h.stopContainer wait.id wait.timeout w).1 := by
  simp only [Harness.stopContainer, hvalue]
  generalize (h.client.stop wait.id wait.timeout w.clock w.store).took = took at htook
  cases hstage with
  | @heard moment' now ending result hstarted hmoment hnow hclock hresult =>
    obtain ⟨hlast, hne⟩ := htook _ rfl
    have hintime : took < wait.timeout := by
      unfold StopWait.deadline at hnow hne
      omega
    simp only [Option.map_some, stopResult, if_pos hintime, hresult.eq_endingResult]
  | abandoned => rfl
  | @late moment' ending hmoment hclock =>
    obtain ⟨hlast, hne⟩ := htook _ rfl
    have hlate : ¬ took < wait.timeout := by
      unfold StopWait.deadline at hmoment
      omega
    simp only [Option.map_some, stopResult, if_neg hlate, stopTimeout]

/-- What holds of stops that race against their deadlines, in whatever order things happen. -/
structure StopsRace {σ : Type} (effect : StopEffect σ) (state : σ) : Prop where
  /-- Each stop makes one call, of its container and with its timeout. -/
  calls (events : List StopEvent) :
    let stops := Stops.run effect state events
    stops.calls.map (fun call => (call.id, call.timeout)) =
      events.filterMap StopEvent.started? ∧ stops.waits.length = stops.calls.length
  /-- A stop has a call and a channel of its own, which hold it at one of its stages: it returns how
  its own call ended, or that it has timed out, and no later than at its deadline. -/
  stages (events : List StopEvent) (place : Nat) (wait : StopWait) :
    let stops := Stops.run effect state events
    stops.waits[place]? = some wait → ∃ call channel, stops.calls[place]? = some call ∧
      stops.channels[place]? = some channel ∧ StopTriple place stops.clock wait call channel
  /-- A stop whose call ends while it is waited for never returns anything else. -/
  first (events more : List StopEvent) (place moment : Nat) (ending : Ending) (wait : StopWait)
    (call : StopCall) :
    let stops := Stops.run effect state events
    stops.waits[place]? = some wait → stops.calls[place]? = some call → wait.returned = none →
      call.ended = some (moment, ending) →
        (Stops.run effect state (events ++ more)).HearsOf place ending
  /-- A stop that has returned stays as it is. -/
  lasting (events more : List StopEvent) (place : Nat) (wait : StopWait) :
    (Stops.run effect state events).waits[place]? = some wait → wait.returned ≠ none →
      (Stops.run effect state (events ++ more)).waits[place]? = some wait
  /-- No stop returns because a call ends. -/
  quiet (events : List StopEvent) (thread : Nat) (ending : Ending) :
    (Stops.run effect state (events ++ [.finish thread ending])).waits =
      (Stops.run effect state events).waits
  /-- A call has its effect when it ends, whether it is still waited for or not. -/
  takesEffect (events : List StopEvent) (thread : Nat) (call : StopCall) (ending : Ending) :
    let stops := Stops.run effect state events
    stops.calls[thread]? = some call → call.ended = none →
      (Stops.run effect state (events ++ [.finish thread ending])).state =
        effect call.id call.timeout ending stops.state
  /-- There are no other effects, and none is had twice. -/
  effects (events : List StopEvent) :
    Stops.Effected effect state (Stops.run effect state events)
  /-- All stops can return, although no call ends any more. -/
  returns (events : List StopEvent) : ∃ more : List StopEvent,
    (∀ event ∈ more, event.ofWaiters = true) ∧
      ∀ wait ∈ (Stops.run effect state (events ++ more)).waits, wait.returned ≠ none
  /-- Among others a stop gives what a harness gives whose client answers in the same way, unless
  its call ends just at the deadline. -/
  harness {τ : Type} (h : Harness τ) (w : World τ) (events : List StopEvent) (place moment : Nat)
    (wait : StopWait) (call : StopCall) (result : Except Error Unit) :
    let stops := Stops.run effect state events
    let answered := h.client.stop wait.id wait.timeout w.clock w.store
    stops.waits[place]? = some wait → stops.calls[place]? = some call →
      wait.returned = some (moment, result) → answered.value = call.ended.map Prod.snd →
        (∀ last ∈ call.ended, last.1 = wait.started + answered.took ∧ last.1 ≠ wait.deadline) →
          result = (h.stopContainer wait.id wait.timeout w).1

theorem stopsRace {σ : Type} (effect : StopEffect σ) (state : σ) : StopsRace effect state where
  calls events :=
    ⟨Stops.started_run effect state events, (Stops.sound_run effect state events).calls.symm⟩
  stages events place wait hwait := (Stops.sound_run effect state events).exists_triple hwait
  first events more place moment ending wait call hwait hcall hopen hended := by
    rw [Stops.run_append]
    exact Stops.hearsOf_foldl (Stops.sound_run effect state events)
      ⟨wait, call, moment, hwait, hcall, hended, .inl hopen⟩ more
  lasting events more place wait hwait hover := by
    rw [Stops.run_append]
    exact Stops.waits_foldl hwait hover more
  quiet events thread ending := by
    rw [Stops.run_append]
    exact Stops.waits_finish effect _ thread ending
  takesEffect events thread call ending hcall hopen := by
    rw [Stops.run_append]
    exact Stops.state_finish effect ending hcall hopen
  effects := Stops.effected_run effect state
  returns events := by
    obtain ⟨more, hmore, hnone⟩ :=
      Stops.exists_allReturn effect (Stops.sound_run effect state events)
    refine ⟨more, hmore, ?_⟩
    intro wait hwait hopen
    rw [Stops.run_append] at hwait
    have hover := List.countP_eq_zero.mp hnone wait hwait
    rw [hopen] at hover
    exact hover rfl
  harness h w events place moment wait call result hwait hcall hreturned hvalue htook := by
    obtain ⟨call', channel, hcall', -, ht⟩ :=
      (Stops.sound_run effect state events).exists_triple hwait
    cases hcall.symm.trans hcall'
    have hstage := ht.stage
    rw [hreturned] at hstage
    exact hstage.result_eq h w hvalue htook

/-- A call that was given up ends while the same container is stopped once more; both have their
effect, and the second stop returns when its own call ends. -/
example :
    let stops := Stops.run (fun _ _ _ ended => ended + 1) 0
      [.start ⟨"ctr"⟩ 50, .pass 50, .expire 0, .start ⟨"ctr"⟩ 50, .finish 0 (.returned (.ok ())),
        .receive 1, .pass 10, .finish 1 .lost, .receive 1]
    stops.waits.map (fun wait => wait.returned.map Prod.fst) = [some 50, some 60] ∧
      stops.state = 2 := by
  decide +kernel

end ContainerCheck.Check
