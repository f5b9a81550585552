import ContainerCheck.CommandLine.Command

namespace ContainerCheck.CommandLine

open ContainerCheck.Host ContainerCheck.Log

/-- The failure of an error number, which some calls give with a minus sign. -/
def numbered (code : UInt32) : IoFault :=
  .os (Int.ofNat (min code.toNat (Nat.pow 2 32 - code.toNat)))

/-- A failure of the system by its number; one without a number keeps its text. -/
def systemFault : IO.Error → IoFault
  | .alreadyExists _ code _ => numbered code
  | .otherError code _ => numbered code
  | .resourceBusy code _ => numbered code
  | .resourceVanished code _ => numbered code
  | .unsupportedOperation code _ => numbered code
  | .hardwareFault code _ => numbered code
  | .unsatisfiedConstraints code _ => numbered code
  | .illegalOperation code _ => numbered code
  | .protocolError code _ => numbered code
  | .timeExpired code _ => numbered code
  | .interrupted _ code _ => numbered code
  | .noFileOrDirectory _ code _ => numbered code
  | .invalidArgument _ code _ => numbered code
  | .permissionDenied _ code _ => numbered code
  | .resourceExhausted _ code _ => numbered code
  | .inappropriateType _ code _ => numbered code
  | .noSuchThing _ code _ => numbered code
  | .unexpectedEof => .stated "unexpected end of file"
  | .userError message => .stated message

def fetch (path : String) : IO (Except IoFault (List UInt8)) := do
  if '\x00' ∈ path.toList then return .error .nulInPath
  try
    let content ← IO.FS.readBinFile path
    return .ok content.toList
  catch fault => return .error (systemFault fault)

def fetchRecords (path : String) : IO (Except Error (List Record)) :=
  return recordsOf path (← fetch path)

def fetchConfig : Option String → IO (Except Error Config)
  | none => return .ok {}
  | some path => return configOf path (← fetch path)

def longestPause : Nat := Nat.pow 2 32 - 1

/-- A span in milliseconds, rounded up. -/
def pauseOf (span : Nat) : UInt32 := (min longestPause ((span + 999999) / 1000000)).toUInt32

/-- Looks for a message again and again until the waiting that began at `start` is over. -/
partial def watch (v : Verification) (config : Config) (limit start : Nat) :
    IO (Except Error Unit) := do
  let seen ← fetchRecords v.file
  let waited := (← IO.monoNanosNow) - start
  match Poll.afterProbe v.accepts (v.pause config) limit waited seen with
  | .done (.ok _) => return .ok ()
  | .done (.error error) => return .error (error.toError v.subject describeSequence)
  | .pause span =>
    IO.sleep (pauseOf span)
    watch v config limit start

def Verification.perform (v : Verification) (config : Config) : IO (Except Error Unit) := do
  match v.wait with
  | none =>
    return (← fetchRecords v.file) >>= fun records =>
      Check.requireMessage records v.payload v.stream
  | some limit => watch v config (Time.seconds limit) (← IO.monoNanosNow)

def Command.perform (config : Config) : Command → IO (Except Error String)
  | parse file json =>
    return (← fetchRecords file).map fun records => printed (recordLines file json records)
  | verify v => return (← v.perform config).map fun _ => v.report
  | scenarios => return .ok (printed scenarioLines)

def Invocation.perform (invocation : Invocation) : IO (Except Error String) := do
  match ← fetchConfig invocation.config with
  | .error error => return .error error
  | .ok config => invocation.command.perform config

def complain (error : Error) : IO Unit := do
  IO.eprintln ("Error: " ++ error.message)
  for cause in error.chain.drop 1 do
    IO.eprintln ("Caused by: " ++ cause)

def runProgram (arguments : List String) : IO UInt32 := do
  match readArguments arguments with
  | .error usage =>
    if usage.exitCode = 0 then IO.println usage.message else IO.eprintln usage.message
    return usage.exitCode.toUInt32
  | .ok invocation =>
    match ← invocation.perform with
    | .ok text =>
      IO.print text
      return 0
    | .error error =>
      complain error
      return 1

end ContainerCheck.CommandLine

def main (arguments : List String) : IO UInt32 :=
  ContainerCheck.CommandLine.runProgram arguments
