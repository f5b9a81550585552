import ContainerCheck.Cri.Request
import ContainerCheck.Host.Files

namespace ContainerCheck

open ContainerCheck.Host ContainerCheck.Text

/-- What a run shares with others: the file tree, and what the runtime keeps. -/
structure Store (σ : Type) where
  tree : Tree
  state : σ

structure Event (σ : Type) where
  due : Nat
  effect : Store σ → Store σ

inductive Deed
  | call (exchange : Cri.Exchange)
  | loadConfig (path : String)
  | readLog (path : String)
  | look (path : String)
  | makeTemporary (stem : String)
  | makeFile (path : String)
  | makeLink (path target : String)
  | rename (source target : String)

structure Note (σ : Type) where
  time : Nat
  before : Store σ
  deed : Deed

structure Call (σ : Type) where
  time : Nat
  before : Store σ
  exchange : Cri.Exchange

def Note.call? {σ : Type} (note : Note σ) : Option (Call σ) :=
  match note.deed with
  | .call exchange => some ⟨note.time, note.before, exchange⟩
  | _ => none

/-- The clock moves when somebody waits or works, but what is due happens only while somebody
sleeps. -/
structure World (σ : Type) where
  /-- Nanoseconds since the start. -/
  clock : Nat
  store : Store σ
  /-- The changes to come, in the order in which they will happen. -/
  pending : List (Event σ)
  /-- How many fresh names have been drawn. -/
  drawn : Nat
  /-- What has been done so far, the latest first. -/
  notes : List (Note σ)

/-- Adds a change behind all that are due no later. -/
def insertEvent {σ : Type} (event : Event σ) : List (Event σ) → List (Event σ)
  | [] => [event]
  | other :: rest =>
    if other.due ≤ event.due then other :: insertEvent event rest else event :: other :: rest

def Event.ofAction {σ : Type} (due : Nat) (action : FileAction) : Event σ :=
  ⟨due, fun store => { store with tree := action.attempt store.tree }⟩

namespace World

variable {σ : Type}

def start (tree : Tree) (state : σ) : World σ := ⟨0, ⟨tree, state⟩, [], 0, []⟩

def tree (w : World σ) : Tree := w.store.tree

def calls (w : World σ) : List (Call σ) := w.notes.filterMap Note.call?

def setTree (w : World σ) (tree : Tree) : World σ :=
  { w with store := { w.store with tree := tree } }

def schedule (w : World σ) (event : Event σ) : World σ :=
  { w with pending := insertEvent event w.pending }

/-- Time passes, but nobody sleeps. -/
def elapse (w : World σ) (span : Nat) : World σ := { w with clock := w.clock + span }

def settle (w : World σ) : World σ :=
  let due := w.pending.takeWhile fun event => event.due ≤ w.clock
  let later := w.pending.dropWhile fun event => event.due ≤ w.clock
  { w with store := due.foldl (fun store event => event.effect store) w.store, pending := later }

/-- Time passes asleep. A sleep of no length is none, and nothing happens in it. -/
def sleep (w : World σ) (span : Nat) : World σ :=
  if span = 0 then w else (w.elapse span).settle

def note (w : World σ) (time : Nat) (before : Store σ) (deed : Deed) : World σ :=
  { w with notes := ⟨time, before, deed⟩ :: w.notes }

def noteNow (w : World σ) (deed : Deed) : World σ := w.note w.clock w.store deed

@[simp] theorem clock_elapse (w : World σ) (span : Nat) :
    (w.elapse span).clock = w.clock + span := rfl

@[simp] theorem clock_settle (w : World σ) : w.settle.clock = w.clock := rfl

@[simp] theorem clock_sleep (w : World σ) (span : Nat) :
    (w.sleep span).clock = w.clock + span := by
  unfold sleep
  split
  · next h => rw [h, Nat.add_zero]
  · rfl

@[simp] theorem notes_sleep (w : World σ) (span : Nat) : (w.sleep span).notes = w.notes := by
  unfold sleep
  split <;> rfl

@[simp] theorem clock_noteNow (w : World σ) (deed : Deed) : (w.noteNow deed).clock = w.clock := rfl

/-- The path of the directory that is both working directory and home of temporary ones. -/
def home (w : World σ) : String := pathOf w.tree.home

def freshSuffix (n : Nat) : String := String.ofList ('Z' :: 'q' :: fixed 4 n)

def freshUuid (n : Nat) : String :=
  "00000000-0000-4000-8000-" ++ String.ofList (fixed 12 n)

/-- How often a name that is taken is drawn again. -/
def nameAttempts : Nat := 65536

def makeTemporary (parent stem : String) : Nat → World σ → Except IoFault String × World σ
  | 0, w => (.error (.atPath (.stated "too many temporary files exist") parent), w)
  | attempts + 1, w =>
    let path := joinPath parent (stem ++ freshSuffix w.drawn)
    let next := { w with drawn := w.drawn + 1 }
    match w.tree.makeDirectory path with
    | .ok tree => (.ok path, next.setTree tree)
    | .error fault =>
      if fault = .alreadyExists then makeTemporary parent stem attempts next
      else (.error (.atPath fault path), next)

/-- Removes a directory with everything in it, or leaves all as it is. -/
def discard (w : World σ) (path : String) : World σ :=
  match w.tree.removeAll path with
  | .ok tree => w.setTree tree
  | .error _ => w

def discardFile (w : World σ) (path : String) : World σ :=
  match w.tree.removeFile path with
  | .ok tree => w.setTree tree
  | .error _ => w

end World

end ContainerCheck
