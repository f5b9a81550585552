import ContainerCheck.Session

namespace ContainerCheck.Poll

class Clock (S : Type) where
  now : S → Nat
  sleep : Nat → S → S

instance (σ : Type) : Clock (World σ) where
  now w := w.clock
  sleep span w := w.sleep span

inductive PollError (ε α : Type)
  | timeout (last : α) (waited : Nat)
  | probe (error : ε)
  /-- The loop makes no progress: it neither pauses nor do its probes take time. -/
  | endless

inductive HoldError (ε α : Type)
  | broken (value : α) (held : Nat)
  | probe (error : ε)
  /-- The loop makes no progress. -/
  | endless

inductive Next (ρ : Type)
  | done (result : ρ)
  | pause (span : Nat)

/-- Probes that may go by without the clock moving. -/
def patience : Nat := 1048576

theorem patience_pos : 0 < patience := by decide

section

variable {ε α S : Type}

/-- Waiting is over when a probe fails, is accepted, or ends at the deadline or later. -/
def afterProbe (accept : α → Bool) (interval timeout waited : Nat) :
    Except ε α → Next (Except (PollError ε α) α)
  | .error error => .done (.error (.probe error))
  | .ok value =>
    if accept value then .done (.ok value)
    else if timeout ≤ waited then .done (.error (.timeout value waited))
    else .pause (min interval (timeout - waited))

/-- Holding is over when a probe fails, is not accepted, or ends at the window's end or later. -/
def afterCheck (accept : α → Bool) (interval window held : Nat) :
    Except ε α → Next (Except (HoldError ε α) α)
  | .error error => .done (.error (.probe error))
  | .ok value =>
    if ¬ accept value then .done (.error (.broken value held))
    else if window ≤ held then .done (.ok value)
    else .pause (min interval (window - held))

variable [Clock S] (probe : S → Except ε α × S) (accept : α → Bool) (interval : Nat)

def pollFrom (timeout start : Nat) : Nat → S → Except (PollError ε α) α × S
  | 0, s => (.error .endless, s)
  | rounds + 1, s =>
    let (seen, s) := probe s
    match afterProbe accept interval timeout (Clock.now s - start) seen with
    | .done result => (result, s)
    | .pause span => pollFrom timeout start rounds (Clock.sleep span s)

/-- Probes until a value is accepted, pauses between probes but never past the timeout, and probes
once more at it. -/
def pollUntil (timeout : Nat) (s : S) : Except (PollError ε α) α × S :=
  pollFrom probe accept interval timeout (Clock.now s) (timeout + patience) s

def holdFrom (window start : Nat) : Nat → S → Except (HoldError ε α) α × S
  | 0, s => (.error .endless, s)
  | rounds + 1, s =>
    let (seen, s) := probe s
    match afterCheck accept interval window (Clock.now s - start) seen with
    | .done result => (result, s)
    | .pause span => holdFrom window start rounds (Clock.sleep span s)

def holdSteady (window : Nat) (s : S) : Except (HoldError ε α) α × S :=
  holdFrom probe accept interval window (Clock.now s) (window + patience) s

end

def PollError.message {α : Type} (describe : α → String) : PollError Error α → String
  | .timeout last waited =>
    "condition not met after " ++ Time.spanText waited ++ ", last observed " ++ describe last
  | .probe error => "probe failed: " ++ error.message
  | .endless => "polling never ends"

def PollError.toError {α : Type} (condition : String) (describe : α → String) :
    PollError Error α → Error
  | .timeout last waited => .timeout condition waited (describe last)
  | .probe error => error
  | .endless => .endless condition

def HoldError.toError {α : Type} (condition : String) (describe : α → String) :
    HoldError Error α → Error
  | .broken value held =>
    .assertion (condition ++ " stopped holding after " ++ Time.spanText held ++ ": observed " ++
      describe value)
  | .probe error => error
  | .endless => .endless condition

end ContainerCheck.Poll

namespace ContainerCheck.Session

open ContainerCheck.Poll

variable {σ α : Type}

/-- Probes until a value is accepted; a timeout names what was waited for and what was seen. -/
def waitFor (condition : String) (describe : α → String) (probe : Session σ α) (accept : α → Bool)
    (interval timeout : Nat) : Session σ α := fun w =>
  match pollUntil probe accept interval timeout w with
  | (.ok value, w) => (.ok value, w)
  | (.error error, w) => (.error (error.toError condition describe), w)

def hold (condition : String) (describe : α → String) (probe : Session σ α) (accept : α → Bool)
    (interval window : Nat) : Session σ α := fun w =>
  match holdSteady probe accept interval window w with
  | (.ok value, w) => (.ok value, w)
  | (.error error, w) => (.error (error.toError condition describe), w)

end ContainerCheck.Session
