import ContainerCheck.Check.Scenario
import ContainerCheck.Proofs.Calls
import ContainerCheck.Proofs.Conduct

namespace ContainerCheck

open ContainerCheck.Cri ContainerCheck.Host ContainerCheck.Poll

variable {σ α β : Type}

namespace Cri.Exchange

def operation : Exchange → Operation
  | asked request _ => request.operation
  | stopped .. => .stopContainer

def Succeeds : Exchange → Prop
  | asked _ answer => ∃ value, answer = .ok value
  | stopped _ _ ending => ending = some (.returned (.ok ()))

end Cri.Exchange

namespace Deed

inductive Kind
  | call (operation : Operation)
  | loadConfig
  | readLog
  | look
  | makeTemporary
  | makeFile
  | makeLink
  | rename
deriving DecidableEq

def kind : Deed → Kind
  | call exchange => .call exchange.operation
  | loadConfig _ => .loadConfig
  | readLog _ => .readLog
  | look _ => .look
  | makeTemporary _ => .makeTemporary
  | makeFile _ => .makeFile
  | makeLink .. => .makeLink
  | rename .. => .rename

end Deed

/-- Whether a deed could be done in the surroundings that it was done in. The fresh name of a
temporary directory is not noted, so that one that is free must do. -/
def Note.WentWell (note : Note σ) : Prop :=
  match note.deed with
  | .call exchange => exchange.Succeeds
  | .loadConfig path => ∃ content, note.before.tree.read path = .ok content
  | .readLog path => ∃ records, recordsOf path (note.before.tree.read path) = .ok records
  | .look path => ∃ found, note.before.tree.exists? path = .ok found
  | .makeTemporary stem => ∃ n tree, note.before.tree.makeDirectory
      (joinPath (pathOf note.before.tree.home) (stem ++ World.freshSuffix n)) = .ok tree
  | .makeFile path => ∃ tree, note.before.tree.write path [] = .ok tree
  | .makeLink path target => ∃ tree, note.before.tree.makeLink path target = .ok tree
  | .rename source target => ∃ tree, note.before.tree.rename source target = .ok tree

namespace World

/-- From one world to the other these deeds have been noted, the first one first. -/
def Noted (w : World σ) (trace : List (Note σ)) (w' : World σ) : Prop :=
  w'.notes = trace.reverse ++ w.notes

namespace Noted

variable {w w' w'' : World σ} {trace more : List (Note σ)}

theorem nil (h : w'.notes = w.notes) : w.Noted [] w' := h

theorem append (h : w.Noted trace w') (h' : w'.Noted more w'') : w.Noted (trace ++ more) w'' := by
  unfold Noted at h h' ⊢
  rw [h', h, List.reverse_append, List.append_assoc]

theorem unique (h : w.Noted trace w') (h' : w.Noted more w') : trace = more := by
  have happend : trace.reverse ++ w.notes = more.reverse ++ w.notes := h.symm.trans h'
  exact List.reverse_inj.mp (List.append_cancel_right happend)

theorem sameNotes (h : w.Noted trace w') (hnotes : w''.notes = w'.notes) : w.Noted trace w'' :=
  hnotes.trans h

theorem noteNow (w : World σ) (deed : Deed) :
    w.Noted [⟨w.clock, w.store, deed⟩] (w.noteNow deed) := rfl

theorem settle (answered : Answered σ α) (span : Nat) (exchange : Exchange) (w : World σ) :
    w.Noted [⟨w.clock, w.store, .call exchange⟩] (answered.settle span exchange w) := by
  have hnotes := notes_schedule answered.events { w with store := answered.store }
  exact congrArg (List.cons (⟨w.clock, w.store, .call exchange⟩ : Note σ)) hnotes

theorem ask (client : Client σ) (request : Request) (w : World σ) :
    w.Noted [⟨w.clock, w.store, .call (.asked request (client.ask request w).1)⟩]
      (client.ask request w).2 := settle _ _ _ w

end Noted

end World

namespace Session

def Does (kind : Deed.Kind) (tells : Except Error α → Note σ → Prop) (step : Session σ α) : Prop :=
  ∀ w, ∃ note, w.Noted [note] (step w).2 ∧ note.deed.kind = kind ∧ tells (step w).1 note

theorem Does.lift {kind : Deed.Kind} {tells : Except Error α → Note σ → Prop} {step : Session σ α}
    (h : Does kind tells step) (f : α → Except Error β) :
    Does kind (fun result note => ∃ seen, tells seen note ∧ result = seen.bind f)
      (step >>= fun value => Session.lift (f value)) := by
  intro w
  obtain ⟨note, hnoted, hkind, htells⟩ := h w
  rw [bind_run]
  rcases heq : step w with ⟨result, w'⟩
  rw [heq] at hnoted htells
  cases result with
  | ok value => exact ⟨note, hnoted, hkind, _, htells, rfl⟩
  | error error => exact ⟨note, hnoted, hkind, _, htells, rfl⟩

theorem does_inspect (deed : Deed) (read : Tree → Except Error α) :
    Does deed.kind (fun result note => note.deed = deed ∧ result = read note.before.tree)
      (inspect deed read : Session σ α) := by
  intro w
  exact ⟨_, .noteNow w deed, rfl, rfl, rfl⟩

theorem does_changeTree (deed : Deed) (path : String) (change : Tree → Except IoFault Tree) :
    Does deed.kind (fun result note => note.deed = deed ∧
      (result = .ok () ↔ ∃ tree, change note.before.tree = .ok tree))
      (changeTree deed path change : Session σ Unit) := by
  intro w
  refine ⟨⟨w.clock, w.store, deed⟩, ?_, rfl, rfl, ?_⟩
  · unfold changeTree
    split
    · exact .noteNow w deed
    · exact .noteNow w deed
  · change (changeTree deed path change w).1 = .ok () ↔ ∃ tree, change w.tree = .ok tree
    unfold changeTree
    cases change w.tree with
    | ok tree => exact iff_of_true rfl ⟨tree, rfl⟩
    | error fault => exact iff_of_false (fun hok => nomatch hok) (fun ⟨_, hok⟩ => nomatch hok)

end Session

namespace Poll

/-- What a wait notes, by its result: a probe that is not accepted is followed by another one, or
the wait gives up. -/
inductive Polled (tells : Except Error α → Note σ → Prop) (accept : α → Bool) :
    Except (PollError Error α) α → List (Note σ) → Prop
  | accepted {value : α} {note : Note σ} (htells : tells (.ok value) note)
    (haccept : accept value = true) : Polled tells accept (.ok value) [note]
  | failed {error : Error} {note : Note σ} (htells : tells (.error error) note) :
    Polled tells accept (.error (.probe error)) [note]
  | late {value : α} {note : Note σ} (waited : Nat) (htells : tells (.ok value) note)
    (haccept : accept value = false) : Polled tells accept (.error (.timeout value waited)) [note]
  | endless : Polled tells accept (.error .endless) []
  | again {value : α} {note : Note σ} {result : Except (PollError Error α) α}
    {trace : List (Note σ)} (htells : tells (.ok value) note) (haccept : accept value = false)
    (hrest : Polled tells accept result trace) : Polled tells accept result (note :: trace)

/-- What a hold notes, by its result: a probe that is accepted is followed by another one, or it is
the last one. -/
inductive Held (tells : Except Error α → Note σ → Prop) (accept : α → Bool) :
    Except (HoldError Error α) α → List (Note σ) → Prop
  | held {value : α} {note : Note σ} (htells : tells (.ok value) note)
    (haccept : accept value = true) : Held tells accept (.ok value) [note]
  | failed {error : Error} {note : Note σ} (htells : tells (.error error) note) :
    Held tells accept (.error (.probe error)) [note]
  | broken {value : α} {note : Note σ} (held : Nat) (htells : tells (.ok value) note)
    (haccept : accept value = false) : Held tells accept (.error (.broken value held)) [note]
  | endless : Held tells accept (.error .endless) []
  | again {value : α} {note : Note σ} {result : Except (HoldError Error α) α}
    {trace : List (Note σ)} (htells : tells (.ok value) note) (haccept : accept value = true)
    (hrest : Held tells accept result trace) : Held tells accept result (note :: trace)

section

variable {kind : Deed.Kind} {tells : Except Error α → Note σ → Prop}
  {probe : World σ → Except Error α × World σ} (hprobe : Session.Does kind tells probe)
  (accept : α → Bool) (interval bound start : Nat)
include hprobe

theorem pollFrom_polled (rounds : Nat) (w : World σ) :
    ∃ trace, w.Noted trace (pollFrom probe accept interval bound start rounds w).2 ∧
      (∀ note ∈ trace, note.deed.kind = kind) ∧
      Polled tells accept (pollFrom probe accept interval bound start rounds w).1 trace := by
  induction rounds generalizing w with
  | zero => exact ⟨[], .nil rfl, by simp, .endless⟩
  | succ rounds ih =>
    obtain ⟨note, hnoted, hkind, htells⟩ := hprobe w
    have hone : ∀ other ∈ [note], other.deed.kind = kind := by simpa using hkind
    simp only [pollFrom]
    split
    · next result hdone =>
      have hverdict := verdict_of_done hdone
      refine ⟨[note], hnoted, hone, ?_⟩
      generalize (probe w).1 = seen at htells hverdict
      cases hverdict with
      | failed error => exact .failed htells
      | accepted value h => exact .accepted htells h
      | timedOut value h ht => exact .late _ htells h
    · next span hpause =>
      obtain ⟨⟨value, hseen, hrejected⟩, -, -⟩ := rejected_of_pause hpause
      rw [hseen] at htells
      obtain ⟨trace, hrest, hkinds, hpolled⟩ := ih (Clock.sleep span (probe w).2)
      have hsleep : w.Noted [note] (Clock.sleep span (probe w).2) :=
        hnoted.sameNotes (World.notes_sleep _ span)
      refine ⟨note :: trace, hsleep.append hrest, ?_, .again htells hrejected hpolled⟩
      exact List.forall_mem_cons.mpr ⟨hkind, hkinds⟩

theorem holdFrom_held (rounds : Nat) (w : World σ) :
    ∃ trace, w.Noted trace (holdFrom probe accept interval bound start rounds w).2 ∧
      (∀ note ∈ trace, note.deed.kind = kind) ∧
      Held tells accept (holdFrom probe accept interval bound start rounds w).1 trace := by
  induction rounds generalizing w with
  | zero => exact ⟨[], .nil rfl, by simp, .endless⟩
  | succ rounds ih =>
    obtain ⟨note, hnoted, hkind, htells⟩ := hprobe w
    have hone : ∀ other ∈ [note], other.deed.kind = kind := by simpa using hkind
    simp only [holdFrom]
    generalize Clock.now (probe w).2 - start = held
    cases hseen : (probe w).1 with
    | error error =>
      rw [hseen] at htells
      exact ⟨[note], hnoted, hone, .failed htells⟩
    | ok value =>
      rw [hseen] at htells
      rw [afterCheck]
      cases haccept : accept value with
      | false => exact ⟨[note], hnoted, hone, .broken held htells haccept⟩
      | true =>
        by_cases hover : bound ≤ held
        · simp only [hover, not_true_eq_false, if_true, if_false]
          exact ⟨[note], hnoted, hone, .held htells haccept⟩
        · simp only [hover, not_true_eq_false, if_false]
          obtain ⟨trace, hrest, hkinds, hheld⟩ :=
            ih (Clock.sleep (min interval (bound - held)) (probe w).2)
          have hsleep : w.Noted [note] (Clock.sleep (min interval (bound - held)) (probe w).2) :=
            hnoted.sameNotes (World.notes_sleep _ _)
          refine ⟨note :: trace, hsleep.append hrest, ?_, .again htells haccept hheld⟩
          exact List.forall_mem_cons.mpr ⟨hkind, hkinds⟩

end

def Refused (tells : Except Error α → Note σ → Prop) (accept : α → Bool) (note : Note σ) : Prop :=
  (∃ error, tells (.error error) note) ∨ ∃ value, tells (.ok value) note ∧ accept value = false

variable {tells : Except Error α → Note σ → Prop} {accept : α → Bool} {trace : List (Note σ)}

/-- A wait that succeeds has refused every value but the last one. -/
theorem Polled.of_ok {value : α} (h : Polled tells accept (.ok value) trace) :
    ∃ before last, trace = before ++ [last] ∧ tells (.ok value) last ∧ accept value = true ∧
      ∀ note ∈ before, ∃ other, tells (.ok other) note ∧ accept other = false := by
  generalize hresult : (Except.ok value : Except (PollError Error α) α) = result at h
  induction h with
  | accepted htells haccept =>
    cases hresult
    exact ⟨[], _, rfl, htells, haccept, by simp⟩
  | again htells haccept _ ih =>
    obtain ⟨before, last, rfl, hlast, haccepted, hbefore⟩ := ih hresult
    refine ⟨_ :: before, last, rfl, hlast, haccepted, ?_⟩
    exact List.forall_mem_cons.mpr ⟨⟨_, htells, haccept⟩, hbefore⟩
  | failed => cases hresult
  | late => cases hresult
  | endless => cases hresult

/-- A wait that fails has accepted nothing. -/
theorem Polled.of_error {error : PollError Error α} (h : Polled tells accept (.error error) trace) :
    ∀ note ∈ trace, Refused tells accept note := by
  generalize hresult : (Except.error error : Except (PollError Error α) α) = result at h
  induction h with
  | accepted => cases hresult
  | again htells haccept _ ih =>
    exact List.forall_mem_cons.mpr ⟨.inr ⟨_, htells, haccept⟩, ih hresult⟩
  | failed htells => exact List.forall_mem_singleton.mpr (.inl ⟨_, htells⟩)
  | late _ htells haccept => exact List.forall_mem_singleton.mpr (.inr ⟨_, htells, haccept⟩)
  | endless => simp

/-- A hold that succeeds has accepted every value, at least one. -/
theorem Held.of_ok {value : α} (h : Held tells accept (.ok value) trace) :
    trace ≠ [] ∧ ∀ note ∈ trace, ∃ seen, tells (.ok seen) note ∧ accept seen = true := by
  generalize hresult : (Except.ok value : Except (HoldError Error α) α) = result at h
  induction h with
  | held htells haccept =>
    exact ⟨List.cons_ne_nil _ _, List.forall_mem_singleton.mpr ⟨_, htells, haccept⟩⟩
  | again htells haccept _ ih =>
    refine ⟨List.cons_ne_nil _ _, ?_⟩
    exact List.forall_mem_cons.mpr ⟨⟨_, htells, haccept⟩, (ih hresult).2⟩
  | failed => cases hresult
  | broken => cases hresult
  | endless => cases hresult

theorem Held.told {result : Except (HoldError Error α) α} (h : Held tells accept result trace) :
    ∀ note ∈ trace, ∃ seen, tells seen note := by
  induction h with
  | held htells => exact List.forall_mem_singleton.mpr ⟨_, htells⟩
  | failed htells => exact List.forall_mem_singleton.mpr ⟨_, htells⟩
  | broken _ htells => exact List.forall_mem_singleton.mpr ⟨_, htells⟩
  | endless => simp
  | again htells _ _ ih => exact List.forall_mem_cons.mpr ⟨⟨_, htells⟩, ih⟩

/-- A hold that fails has not accepted some value, unless it makes no progress. -/
theorem Held.of_error {error : HoldError Error α} (h : Held tells accept (.error error) trace) :
    error = .endless ∨ ∃ note ∈ trace, Refused tells accept note := by
  generalize hresult : (Except.error error : Except (HoldError Error α) α) = result at h
  induction h with
  | held => cases hresult
  | again htells haccept _ ih =>
    rcases ih hresult with hendless | ⟨note, hnote, hrefused⟩
    · exact .inl hendless
    · exact .inr ⟨note, List.mem_cons_of_mem _ hnote, hrefused⟩
  | failed htells => exact .inr ⟨_, List.mem_singleton_self _, .inl ⟨_, htells⟩⟩
  | broken _ htells haccept =>
    exact .inr ⟨_, List.mem_singleton_self _, .inr ⟨_, htells, haccept⟩⟩
  | endless =>
    cases hresult
    exact .inl rfl

end Poll

end ContainerCheck
