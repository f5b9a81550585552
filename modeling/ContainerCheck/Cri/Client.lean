import ContainerCheck.World

namespace ContainerCheck.Cri

/-- An answer, the time it took, and what the call changed at once or will change later. -/
structure Answered (σ α : Type) where
  value : α
  took : Nat := 0
  store : Store σ
  events : List (Event σ) := []

/-- Any function of the call, the time and the surroundings: what is said of every client is said of
every runtime. -/
structure Client (σ : Type) where
  answer : (request : Request) → (now : Nat) → Store σ → Answered σ request.Answer
  /-- Stops a container, unless the call outlasts every deadline. -/
  stop : (id : ContainerId) → (timeout now : Nat) → Store σ → Answered σ (Option Ending)

namespace Answered

variable {σ α : Type}

/-- The world once a call was answered and `span` of time is over. -/
def settle (answered : Answered σ α) (span : Nat) (exchange : Exchange) (w : World σ) : World σ :=
  let after := answered.events.foldl World.schedule { w with store := answered.store }
  (after.elapse span).note w.clock w.store (.call exchange)

end Answered

def Client.ask {σ : Type} (client : Client σ) (request : Request) (w : World σ) :
    request.Answer × World σ :=
  let answered := client.answer request w.clock w.store
  (answered.value, answered.settle answered.took (.asked request answered.value) w)

end ContainerCheck.Cri
