import ContainerCheck.Check.Lifecycle

namespace ContainerCheck.Check

open ContainerCheck.Cri

/-- A channel for one message, with one sender and one receiver. -/
inductive StopChannel
  | empty
  | holding (result : Except String Unit)
  /-- The sender has gone without a message. -/
  | closed
  /-- The receiver has gone, and no message is kept. -/
  | dropped
deriving Inhabited

namespace StopChannel

def send (ending : Ending) : StopChannel → StopChannel
  | empty =>
    match ending with
    | .returned result => holding result
    | .lost => closed
  | channel => channel

def heard? : StopChannel → Option Ending
  | holding result => some (.returned result)
  | closed => some .lost
  | _ => none

@[simp] theorem heard?_send_empty (ending : Ending) : (empty.send ending).heard? = some ending := by
  cases ending <;> rfl

end StopChannel

structure StopCall where
  id : ContainerId
  timeout : Nat
  issued : Nat
  sender : Nat
  /-- When and how the call ended. -/
  ended : Option (Nat × Ending) := none

structure StopWait where
  id : ContainerId
  timeout : Nat
  started : Nat
  receiver : Nat
  /-- When the stop returned, and with what. -/
  returned : Option (Nat × Except Error Unit) := none

def StopWait.deadline (wait : StopWait) : Nat := wait.started + wait.timeout

/-- Whether time may pass up to a moment: one who waits is never late. -/
def StopWait.allows (wait : StopWait) (moment : Nat) : Bool :=
  wait.returned.isSome || decide (moment ≤ wait.deadline)

/-- What a call does to the state of its runtime when it ends. -/
abbrev StopEffect (σ : Type) := ContainerId → Nat → Ending → σ → σ

def StopCall.apply {σ : Type} (effect : StopEffect σ) (call : StopCall) (state : σ) : σ :=
  match call.ended with
  | some (_, ending) => effect call.id call.timeout ending state
  | none => state

/-- Stops of one runtime, each of which makes its call on a thread of its own and hears of its end
over a channel. Threads go on in any order, but time does not pass the deadline of one who waits. -/
structure Stops (σ : Type) where
  state : σ
  clock : Nat := 0
  channels : List StopChannel := []
  calls : List StopCall := []
  waits : List StopWait := []
  /-- The calls that have had their effect, in this order. -/
  effects : List StopCall := []

inductive StopEvent
  | start (id : ContainerId) (timeout : Nat)
  | finish (thread : Nat) (ending : Ending)
  /-- One who waits takes what is in the channel, if there is something. -/
  | receive (place : Nat)
  /-- One who waits gives up, if nothing is in the channel at the deadline. -/
  | expire (place : Nat)
  | pass (span : Nat)

def StopEvent.started? : StopEvent → Option (ContainerId × Nat)
  | start id timeout => some (id, timeout)
  | _ => none

namespace Stops

variable {σ : Type}

def start (stops : Stops σ) (id : ContainerId) (timeout : Nat) : Stops σ :=
  let channel := stops.channels.length
  { stops with
    channels := stops.channels ++ [.empty]
    calls := stops.calls ++
      [{ id := id, timeout := timeout, issued := stops.clock, sender := channel }]
    waits := stops.waits ++
      [{ id := id, timeout := timeout, started := stops.clock, receiver := channel }] }

def finish (effect : StopEffect σ) (stops : Stops σ) (thread : Nat) (call : StopCall)
    (ending : Ending) : Stops σ :=
  let done := { call with ended := some (stops.clock, ending) }
  { stops with
    state := done.apply effect stops.state
    channels := stops.channels.modify call.sender (·.send ending)
    calls := stops.calls.set thread done
    effects := stops.effects ++ [done] }

def conclude (stops : Stops σ) (place : Nat) (wait : StopWait) (result : Except Error Unit) :
    Stops σ :=
  { stops with
    channels := stops.channels.modify wait.receiver fun _ => .dropped
    waits := stops.waits.set place { wait with returned := some (stops.clock, result) } }

def heard? (stops : Stops σ) (wait : StopWait) : Option Ending :=
  stops.channels[wait.receiver]?.bind StopChannel.heard?

/-- What an event makes of stops; one that cannot happen changes nothing. -/
def step (effect : StopEffect σ) (stops : Stops σ) : StopEvent → Stops σ
  | .start id timeout => stops.start id timeout
  | .finish thread ending =>
    match stops.calls[thread]? with
    | none => stops
    | some call =>
      if call.ended.isSome then stops else stops.finish effect thread call ending
  | .receive place =>
    match stops.waits[place]? with
    | none => stops
    | some wait =>
      match wait.returned, stops.heard? wait with
      | none, some ending => stops.conclude place wait (endingResult ending)
      | _, _ => stops
  | .expire place =>
    match stops.waits[place]? with
    | none => stops
    | some wait =>
      match wait.returned, stops.heard? wait with
      | none, none =>
        if wait.deadline ≤ stops.clock then
          stops.conclude place wait (stopTimeout wait.id wait.timeout)
        else stops
      | _, _ => stops
  | .pass span =>
    if stops.waits.all fun wait => wait.allows (stops.clock + span) then
      { stops with clock := stops.clock + span }
    else stops

def run (effect : StopEffect σ) (state : σ) (events : List StopEvent) : Stops σ :=
  events.foldl (step effect) { state := state }

end Stops

end ContainerCheck.Check
