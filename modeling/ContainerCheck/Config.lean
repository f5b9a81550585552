import ContainerCheck.Error

namespace ContainerCheck

open ContainerCheck.Time

structure Config where
  stopContainerTimeoutSecs : Nat := 60
  execSyncTimeoutSecs : Nat := 5
  defaultLog : String := "hello World"
  statePollIntervalMs : Nat := 4000
  statePollTimeoutMs : Nat := 60000
  logPollIntervalMs : Nat := 1000
  logPollTimeoutMs : Nat := 60000
  logSteadyWindowMs : Nat := 5000
  defaultImage : String := "busybox:1.28"
  defaultVolumeImage : String := "docker.io/library/redis:alpine"
  defaultAttempt : Nat := 2
deriving DecidableEq

namespace Config

def stopContainerTimeout (c : Config) : Nat := seconds c.stopContainerTimeoutSecs

def execSyncTimeout (c : Config) : Nat := seconds c.execSyncTimeoutSecs

def statePollInterval (c : Config) : Nat := milliseconds c.statePollIntervalMs

def statePollTimeout (c : Config) : Nat := milliseconds c.statePollTimeoutMs

def logPollInterval (c : Config) : Nat := milliseconds c.logPollIntervalMs

def logPollTimeout (c : Config) : Nat := milliseconds c.logPollTimeoutMs

def logSteadyWindow (c : Config) : Nat := milliseconds c.logSteadyWindowMs

def spans (c : Config) : List Nat := [
  c.stopContainerTimeout, c.execSyncTimeout, c.statePollInterval, c.statePollTimeout,
  c.logPollInterval, c.logPollTimeout, c.logSteadyWindow]

/-- A configuration as a JSON object; every field has its default. -/
def shape : Json.Shape Config where
  name := "ValidateConfig"
  blank := {}
  defaulted := true
  fields := [
    .of "stop_container_timeout_secs" .nat64 fun c n => { c with stopContainerTimeoutSecs := n },
    .of "exec_sync_timeout_secs" .nat64 fun c n => { c with execSyncTimeoutSecs := n },
    .of "default_log" .string fun c s => { c with defaultLog := s },
    .of "state_poll_interval_ms" .nat64 fun c n => { c with statePollIntervalMs := n },
    .of "state_poll_timeout_ms" .nat64 fun c n => { c with statePollTimeoutMs := n },
    .of "log_poll_interval_ms" .nat64 fun c n => { c with logPollIntervalMs := n },
    .of "log_poll_timeout_ms" .nat64 fun c n => { c with logPollTimeoutMs := n },
    .of "log_steady_window_ms" .nat64 fun c n => { c with logSteadyWindowMs := n },
    .of "default_image" .string fun c s => { c with defaultImage := s },
    .of "default_volume_image" .string fun c s => { c with defaultVolumeImage := s },
    .of "default_attempt" .nat32 fun c n => { c with defaultAttempt := n }]

def toValue (c : Config) : Json.Value := .object [
  ("stop_container_timeout_secs", .number c.stopContainerTimeoutSecs),
  ("exec_sync_timeout_secs", .number c.execSyncTimeoutSecs),
  ("default_log", .string c.defaultLog),
  ("state_poll_interval_ms", .number c.statePollIntervalMs),
  ("state_poll_timeout_ms", .number c.statePollTimeoutMs),
  ("log_poll_interval_ms", .number c.logPollIntervalMs),
  ("log_poll_timeout_ms", .number c.logPollTimeoutMs),
  ("log_steady_window_ms", .number c.logSteadyWindowMs),
  ("default_image", .string c.defaultImage),
  ("default_volume_image", .string c.defaultVolumeImage),
  ("default_attempt", .number c.defaultAttempt)]

def checkInterval (poll : String) (interval window : Nat) : Except ConfigFault Unit :=
  if interval = 0 then .error (.zeroInterval poll)
  else if window < interval then .error (.longInterval poll interval window)
  else .ok ()

/-- The first violation in a configuration, or none. -/
def validate (c : Config) : Except ConfigFault Unit := do
  checkInterval "state poll" c.statePollIntervalMs c.statePollTimeoutMs
  checkInterval "log poll" c.logPollIntervalMs c.logPollTimeoutMs
  checkInterval "log steady" c.logPollIntervalMs c.logSteadyWindowMs
  if '\n' ∈ c.defaultLog.toList then .error .multipleLines

def parse (text : List Char) : Except Error Config :=
  match Json.parse shape.read text with
  | .ok config => .ok config
  | .error error => .error (.serialization error)

def load (text : List Char) : Except Error Config :=
  match parse text with
  | .error error => .error error
  | .ok config =>
    match config.validate with
    | .error fault => .error (.config fault)
    | .ok () => .ok config

theorem checkInterval_eq_ok_iff {poll : String} {interval window : Nat} :
    checkInterval poll interval window = .ok () ↔ interval ≠ 0 ∧ interval ≤ window := by
  unfold checkInterval
  split
  · simp_all
  · split
    · simp
      omega
    · simp
      omega

theorem andThen_eq_ok_iff {ε : Type} {first second : Except ε Unit} :
    (first >>= fun _ => second) = .ok () ↔ first = .ok () ∧ second = .ok () := by
  cases first <;> simp [bind, Except.bind]

theorem validate_eq_ok_iff {c : Config} :
    c.validate = .ok () ↔
      (c.statePollIntervalMs ≠ 0 ∧ c.statePollIntervalMs ≤ c.statePollTimeoutMs) ∧
      (c.logPollIntervalMs ≠ 0 ∧ c.logPollIntervalMs ≤ c.logPollTimeoutMs) ∧
      (c.logPollIntervalMs ≠ 0 ∧ c.logPollIntervalMs ≤ c.logSteadyWindowMs) ∧
      '\n' ∉ c.defaultLog.toList := by
  simp only [validate, andThen_eq_ok_iff, checkInterval_eq_ok_iff]
  by_cases h : '\n' ∈ c.defaultLog.toList <;> simp [h, pure, Except.pure]

end Config

end ContainerCheck
