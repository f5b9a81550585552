import ContainerCheck.Cri.Client
import ContainerCheck.Session

namespace ContainerCheck

open ContainerCheck.Host

namespace Cri

def Request.ofSandbox : Request → Bool
  | runSandbox _ | stopSandbox _ | removeSandbox _ => true
  | _ => false

def Exchange.ofSandbox : Exchange → Bool
  | asked request _ => request.ofSandbox
  | stopped .. => false

end Cri

def Deed.onHost : Deed → Bool
  | call _ => false
  | _ => true

variable {σ : Type}

theorem Note.call?_eq_none {note : Note σ} (h : note.deed.onHost = true) : note.call? = none := by
  unfold Note.call?
  split
  · next exchange heq =>
    rw [heq] at h
    cases h
  · rfl

namespace World

@[simp] theorem calls_sleep (w : World σ) (span : Nat) : (w.sleep span).calls = w.calls := by
  unfold calls
  rw [notes_sleep]

theorem calls_noteNow (w : World σ) {deed : Deed} (h : deed.onHost = true) :
    (w.noteNow deed).calls = w.calls :=
  List.filterMap_cons_none (Note.call?_eq_none h)

theorem notes_discard (w : World σ) (path : String) : (w.discard path).notes = w.notes := by
  unfold discard
  split
  · rfl
  · rfl

theorem notes_discardFile (w : World σ) (path : String) :
    (w.discardFile path).notes = w.notes := by
  unfold discardFile
  split
  · rfl
  · rfl

theorem notes_makeTemporary (parent stem : String) (attempts : Nat) (w : World σ) :
    (w.makeTemporary parent stem attempts).2.notes = w.notes := by
  induction attempts generalizing w with
  | zero => rfl
  | succ attempts ih =>
    unfold makeTemporary
    dsimp only
    split
    · rfl
    · split
      · rw [ih]
      · rfl

@[simp] theorem calls_discard (w : World σ) (path : String) : (w.discard path).calls = w.calls := by
  unfold calls
  rw [notes_discard]

@[simp] theorem calls_discardFile (w : World σ) (path : String) :
    (w.discardFile path).calls = w.calls := by
  unfold calls
  rw [notes_discardFile]

@[simp] theorem calls_makeTemporary (parent stem : String) (attempts : Nat) (w : World σ) :
    (w.makeTemporary parent stem attempts).2.calls = w.calls := by
  unfold calls
  rw [notes_makeTemporary]

theorem notes_schedule (events : List (Event σ)) (w : World σ) :
    (events.foldl schedule w).notes = w.notes := by
  induction events generalizing w with
  | nil => rfl
  | cons event events ih => exact ih (w.schedule event)

theorem store_schedule (events : List (Event σ)) (w : World σ) :
    (events.foldl schedule w).store = w.store := by
  induction events generalizing w with
  | nil => rfl
  | cons event events ih => exact ih (w.schedule event)

theorem clock_schedule (events : List (Event σ)) (w : World σ) :
    (events.foldl schedule w).clock = w.clock := by
  induction events generalizing w with
  | nil => rfl
  | cons event events ih => exact ih (w.schedule event)

end World

namespace Cri

/-- A call with its answer is the latest of the calls made so far. -/
theorem calls_settle {α : Type} (answered : Answered σ α) (span : Nat) (exchange : Exchange)
    (w : World σ) :
    (answered.settle span exchange w).calls = ⟨w.clock, w.store, exchange⟩ :: w.calls := by
  have hnotes := World.notes_schedule answered.events { w with store := answered.store }
  unfold World.calls
  exact congrArg (List.cons (⟨w.clock, w.store, exchange⟩ : Call σ))
    (congrArg (List.filterMap Note.call?) hnotes)

def Client.callOf (client : Client σ) (request : Request) (w : World σ) : Call σ :=
  ⟨w.clock, w.store, .asked request (client.ask request w).1⟩

theorem calls_ask (client : Client σ) (request : Request) (w : World σ) :
    (client.ask request w).2.calls = client.callOf request w :: w.calls :=
  calls_settle _ _ _ w

end Cri

namespace Session

theorem calls_makeTemporary (stem : String) (w : World σ) :
    (Session.makeTemporary stem w).2.calls = w.calls := by
  unfold Session.makeTemporary
  simp only [World.calls_makeTemporary]
  exact World.calls_noteNow w rfl

end Session

end ContainerCheck
