import ContainerCheck.Check.Lifecycle
import ContainerCheck.Check.Scenario
import ContainerCheck.CommandLine.Arguments

namespace ContainerCheck.CommandLine

open ContainerCheck.Text ContainerCheck.Log

def printed (lines : List String) : String := String.join (lines.map (· ++ "\n"))

/-- The records of a file as a table or, one to a line, as JSON objects. -/
def recordLines (file : String) (json : Bool) (records : List Record) : List String :=
  if json then records.map fun record => record.toValue.text
  else if records = [] then ["No records in " ++ file]
  else tableHead :: records.map Record.row

def padLeft (width : Nat) (text : List Char) : List Char :=
  List.replicate (width - text.length) ' ' ++ text

def scenarioLines : List String :=
  Check.Scenario.all.zipIdx.map fun (scenario, i) =>
    String.ofList (padLeft 2 (decimal (i + 1))) ++ ". " ++ scenario.name

namespace Verification

variable {σ : Type} (v : Verification)

def payload : String := if v.exact then v.message else v.message ++ "\n"

def subject : String := quoted v.payload ++ " on " ++ v.stream.name ++ " in " ++ v.file

def accepts (records : List Record) : Bool := contains records v.payload v.stream

def pause (config : Config) : Nat := (v.interval.map Time.milliseconds).getD config.logPollInterval

def run (config : Config) : Session σ Unit :=
  match v.wait with
  | none => Check.verifyLog v.file v.payload v.stream
  | some limit => do
    let _ ← Session.waitFor v.subject describeSequence (Session.readLog v.file) v.accepts
      (v.pause config) (Time.seconds limit)

def report : String := printed ["found " ++ v.subject]

end Verification

variable {σ : Type}

def Command.run (config : Config) : Command → Session σ String
  | parse file json => do
    let records ← Session.readLog file
    return printed (recordLines file json records)
  | verify verification => do
    verification.run config
    return verification.report
  | scenarios => return printed scenarioLines

def configOf (path : String) (content : Except Host.IoFault (List UInt8)) :
    Except Error Config :=
  match hostResult path content with
  | .error error => .error error
  | .ok content =>
    match decode? content with
    | none => .error (.io path .notText)
    | some text => Config.load text

def loadConfig : Option String → Session σ Config
  | none => return {}
  | some path => Session.inspect (.loadConfig path) fun tree => configOf path (tree.read path)

def Invocation.run (invocation : Invocation) : Session σ String := do
  let config ← loadConfig invocation.config
  invocation.command.run config

end ContainerCheck.CommandLine
