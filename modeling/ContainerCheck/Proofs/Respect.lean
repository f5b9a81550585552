import ContainerCheck.Proofs.Operations

namespace ContainerCheck

open ContainerCheck.Cri

variable {σ : Type}

def Event.Respects (Rel : Store σ → Store σ → Prop) (event : Event σ) : Prop :=
  ∀ store, Rel store (event.effect store)

/-- An answer that respects a relation, now and later. -/
structure Cri.Answered.Respects {α : Type} (Rel : Store σ → Store σ → Prop)
    (answered : Answered σ α) (store : Store σ) : Prop where
  now : Rel store answered.store
  later : ∀ event ∈ answered.events, event.Respects Rel

structure Cri.Client.Respects (Rel : Store σ → Store σ → Prop) (client : Client σ) : Prop where
  answer : ∀ request now store, (client.answer request now store).Respects Rel store
  stop : ∀ id timeout now store, (client.stop id timeout now store).Respects Rel store

def World.Respects (Rel : Store σ → Store σ → Prop) (w : World σ) : Prop :=
  ∀ event ∈ w.pending, event.Respects Rel

theorem World.Respects.same {Rel : Store σ → Store σ → Prop} {w w' : World σ} (h : w.Respects Rel)
    (hpending : w'.pending = w.pending) : w'.Respects Rel :=
  fun event hevent => h event (hpending ▸ hevent)

section

variable {Rel Rel' : Store σ → Store σ → Prop} (himp : ∀ {a b}, Rel a b → Rel' a b)
include himp

theorem Event.Respects.imp {event : Event σ} (h : event.Respects Rel) : event.Respects Rel' :=
  fun store => himp (h store)

theorem Cri.Client.Respects.imp {client : Client σ} (h : client.Respects Rel) :
    client.Respects Rel' where
  answer request now store :=
    have hanswer := h.answer request now store
    ⟨himp hanswer.now, fun event hevent => (hanswer.later event hevent).imp himp⟩
  stop id timeout now store :=
    have hstop := h.stop id timeout now store
    ⟨himp hstop.now, fun event hevent => (hstop.later event hevent).imp himp⟩

end

namespace World

theorem mem_insertEvent {event other : Event σ} {events : List (Event σ)}
    (h : other ∈ insertEvent event events) : other = event ∨ other ∈ events := by
  induction events with
  | nil => exact .inl (List.mem_singleton.mp h)
  | cons first events ih =>
    rw [insertEvent] at h
    split at h
    · rcases List.mem_cons.mp h with rfl | hrest
      · exact .inr List.mem_cons_self
      · rcases ih hrest with rfl | hmem
        · exact .inl rfl
        · exact .inr (List.mem_cons_of_mem _ hmem)
    · exact List.mem_cons.mp h

theorem mem_pending_schedule {events : List (Event σ)} {w : World σ} {event : Event σ}
    (h : event ∈ (events.foldl schedule w).pending) : event ∈ events ∨ event ∈ w.pending := by
  induction events generalizing w with
  | nil => exact .inr h
  | cons first events ih =>
    rcases ih h with hmem | hmem
    · exact .inl (List.mem_cons_of_mem _ hmem)
    · rcases mem_insertEvent hmem with rfl | hmem
      · exact .inl List.mem_cons_self
      · exact .inr hmem

theorem store_settle {α : Type} (answered : Answered σ α) (span : Nat) (exchange : Exchange)
    (w : World σ) : (answered.settle span exchange w).store = answered.store :=
  store_schedule answered.events { w with store := answered.store }

end World

namespace Check

open ContainerCheck.Session

/-- A step that respects a relation, if all that is still to come does. -/
def Respecting (Rel : Store σ → Store σ → Prop) : Conduct σ := fun w _ w' =>
  w.Respects Rel → w'.Respects Rel ∧ Rel w.store w'.store

section

variable {Rel : Store σ → Store σ → Prop} (hrefl : ∀ store, Rel store store)
  (htrans : ∀ {a b c}, Rel a b → Rel b c → Rel a c)
include hrefl

theorem respecting_same {w w' : World σ} (hstore : w'.store = w.store)
    (hpending : w'.pending = w.pending) (outcome : Option Error) : Respecting Rel w outcome w' := by
  intro h
  rw [hstore]
  exact ⟨h.same hpending, hrefl w.store⟩

include htrans

theorem respecting_composes : Conduct.Composes (Respecting Rel) where
  rest w h := ⟨h, hrefl w.store⟩
  andThen hfirst hnext h := by
    obtain ⟨h', hrel⟩ := hfirst h
    obtain ⟨h'', hrel'⟩ := hnext h'
    exact ⟨h'', htrans hrel hrel'⟩
  giveUp _ h := h

theorem respects_foldl {events : List (Event σ)} (h : ∀ event ∈ events, event.Respects Rel)
    (store : Store σ) : Rel store (events.foldl (fun store event => event.effect store) store) := by
  induction events generalizing store with
  | nil => exact hrefl store
  | cons event events ih =>
    have hfirst := h event List.mem_cons_self store
    exact htrans hfirst (ih (fun other hother => h other (List.mem_cons_of_mem _ hother)) _)

theorem respecting_sleep (w : World σ) (span : Nat) : Respecting Rel w none (w.sleep span) := by
  intro h
  unfold World.sleep
  split
  · exact ⟨h, hrefl w.store⟩
  · refine ⟨fun event hevent => h event ((List.dropWhile_sublist _).subset hevent), ?_⟩
    exact respects_foldl hrefl htrans
      (fun event hevent => h event (List.takeWhile_subset _ hevent)) w.store

end

section

variable {Rel : Store σ → Store σ → Prop}

/-- An answered call respects what the answer does. -/
theorem respecting_settle {α : Type} {answered : Answered σ α} {w : World σ}
    (h : answered.Respects Rel w.store) (span : Nat) (exchange : Exchange)
    (outcome : Option Error) : Respecting Rel w outcome (answered.settle span exchange w) := by
  intro hpending
  refine ⟨?_, World.store_settle answered span exchange w ▸ h.now⟩
  intro event hevent
  rcases World.mem_pending_schedule hevent with hmem | hmem
  · exact h.later event hmem
  · exact hpending event hmem

namespace Harness

variable {h : Harness σ} (hclient : h.client.Respects Rel)
include hclient

theorem respecting_ask (request : Request) (w : World σ) (outcome : Option Error) :
    Respecting Rel w outcome (h.client.ask request w).2 :=
  respecting_settle (hclient.answer request w.clock w.store) _ _ outcome

theorem conducts_respecting (hrefl : ∀ store, Rel store store)
    (htrans : ∀ {a b c}, Rel a b → Rel b c → Rel a c) : h.Conducts (Respecting Rel) where
  toComposes := respecting_composes hrefl htrans
  sleeps := respecting_sleep hrefl htrans
  notes _ _ _ := respecting_same hrefl rfl rfl none
  draws _ := respecting_same hrefl rfl rfl none
  calls request _ w := respecting_ask hclient request w _
  stops id timeout w := respecting_settle (hclient.stop id timeout w.clock w.store) _ _ _

end Harness

end

end Check

end ContainerCheck
