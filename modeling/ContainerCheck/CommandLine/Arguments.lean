import ContainerCheck.CommandLine.Usage
import ContainerCheck.Log.Stream
import ContainerCheck.Text.Digits

namespace ContainerCheck.CommandLine

open ContainerCheck.Text ContainerCheck.Log

/-- The part of the command line that an argument belongs to. -/
inductive Level
  | top
  | parse
  | verify
  | scenarios
deriving Repr, DecidableEq

inductive Flag
  | help
  | version
  | logJson
  | json
  | exact
deriving Repr, DecidableEq

inductive Setting
  | config
  | file
  | message
  | stream
  | wait
  | interval
deriving Repr, DecidableEq

inductive Parameter
  | flag (flag : Flag)
  | setting (setting : Setting)
deriving Repr, DecidableEq

namespace Level

def commonNames : List (String × Parameter) :=
  [("help", .flag .help), ("config", .setting .config), ("log-json", .flag .logJson)]

def longNames : Level → List (String × Parameter)
  | top => commonNames ++ [("version", .flag .version)]
  | parse => commonNames ++ [("json", .flag .json)]
  | verify => commonNames ++ [
    ("message", .setting .message), ("stream", .setting .stream), ("exact", .flag .exact),
    ("wait", .setting .wait), ("interval", .setting .interval)]
  | scenarios => commonNames

def letters : Level → List (Char × Parameter)
  | top => [('h', .flag .help), ('V', .flag .version)]
  | verify => [
    ('h', .flag .help), ('m', .setting .message), ('s', .setting .stream), ('w', .setting .wait)]
  | _ => [('h', .flag .help)]

def takesFile : Level → Bool
  | parse => true
  | verify => true
  | _ => false

def subcommands : List (String × Level) :=
  [("parse", parse), ("verify", verify), ("scenarios", scenarios)]

end Level

def helpName : String := "help"

/-- What has been given at a level. -/
structure Draft where
  config : Option String := none
  file : Option String := none
  message : Option String := none
  stream : Option LogStream := none
  wait : Option Nat := none
  interval : Option Nat := none
  logJson : Bool := false
  json : Bool := false
  exact : Bool := false
deriving DecidableEq

def readPath (text : String) : Except Usage String :=
  if text = "" then .error .invalidValue else .ok text

def readStream (text : String) : Except Usage LogStream :=
  if isStandardName text then .ok (.ofName text) else .error .invalidValue

/-- A number of at most 64 bits, with a plus sign or without. -/
def readCount (text : String) : Except Usage Nat :=
  let digits := match text.toList with
    | '+' :: digits => digits
    | digits => digits
  if digits ≠ [] ∧ digits.all Char.isDigit ∧ digitsValue digits < Nat.pow 2 64 then
    .ok (digitsValue digits)
  else .error .invalidNumber

def once {α : Type} (old : Option α) (new : Except Usage α) : Except Usage (Option α) :=
  match old with
  | some _ => .error .repeatedArgument
  | none => new.map some

def raise (old : Bool) : Except Usage Bool := if old then .error .repeatedArgument else .ok true

namespace Draft

def store (draft : Draft) (setting : Setting) (text : String) : Except Usage Draft :=
  match setting with
  | .config => (once draft.config (readPath text)).map fun value => { draft with config := value }
  | .file => (once draft.file (readPath text)).map fun value => { draft with file := value }
  | .message => (once draft.message (.ok text)).map fun value => { draft with message := value }
  | .stream => (once draft.stream (readStream text)).map fun value => { draft with stream := value }
  | .wait => (once draft.wait (readCount text)).map fun value => { draft with wait := value }
  | .interval =>
    (once draft.interval (readCount text)).map fun value => { draft with interval := value }

def heed (draft : Draft) : Flag → Except Usage Draft
  | .help => .error .help
  | .version => .error .version
  | .logJson => (raise draft.logJson).map fun value => { draft with logJson := value }
  | .json => (raise draft.json).map fun value => { draft with json := value }
  | .exact => (raise draft.exact).map fun value => { draft with exact := value }

end Draft

/-- How far the arguments of a level have been read. A setting is stored when the next argument
begins, so that a missing value shows then. -/
structure Progress where
  draft : Draft := {}
  /-- The latest setting, until it is stored, with its value if it has one. -/
  pending : Option (Setting × Option String) := none
  /-- Whether a file has been given. -/
  filed : Bool := false
  /-- Whether all that follows is positional. -/
  trailing : Bool := false

namespace Progress

def settle (progress : Progress) : Except Usage Progress :=
  match progress.pending with
  | none => .ok progress
  | some (_, none) => .error .invalidValue
  | some (setting, some text) =>
    (progress.draft.store setting text).map fun draft =>
      { progress with draft := draft, pending := none }

def awaiting? (progress : Progress) : Option Setting :=
  match progress.pending with
  | some (setting, none) => some setting
  | _ => none

def named (progress : Progress) (attached : Option String) : Parameter → Except Usage Progress
  | .flag flag =>
    match attached with
    | some _ => .error .unneededValue
    | none => do
      let progress ← progress.settle
      let draft ← progress.draft.heed flag
      return { progress with draft := draft }
  | .setting setting => do
    let progress ← progress.settle
    match attached with
    | none => return { progress with pending := some (setting, none) }
    | some text =>
      let draft ← progress.draft.store setting text
      return { progress with draft := draft }

end Progress

inductive Form
  /-- Two hyphens alone. -/
  | escape
  /-- A name behind two hyphens, with a value behind an equals sign. -/
  | long (name : String) (attached : Option String)
  /-- A letter behind a hyphen, with a value right behind it. -/
  | letter (letter : Char) (attached : Option String)
  | plain

def cutEquals (text : List Char) : String × Option String :=
  (String.ofList (text.takeWhile (· ≠ '=')),
    match text.dropWhile (· ≠ '=') with
    | [] => none
    | _ :: value => some (String.ofList value))

/-- The value that is attached to a letter; an equals sign in front does not belong to it. -/
def attachedValue : List Char → Option String
  | [] => none
  | '=' :: value => some (String.ofList value)
  | value => some (String.ofList value)

def formOf (argument : String) : Form :=
  match argument.toList with
  | ['-', '-'] => .escape
  | '-' :: '-' :: text =>
    let (name, attached) := cutEquals text
    .long name attached
  | '-' :: letter :: text => .letter letter (attachedValue text)
  | _ => .plain

namespace Level

/-- What a plain argument is taken for that nothing waits for. -/
def positional (level : Level) (progress : Progress) (argument : String) :
    Except Usage Progress :=
  if level.takesFile && !progress.filed then do
    let progress ← progress.settle
    return { progress with pending := some (.file, some argument), filed := true }
  else if level = .top then
    if progress.trailing && (argument = helpName || (subcommands.lookup argument).isSome) then
      .error .unknownArgument
    else .error .invalidSubcommand
  else .error .unknownArgument

def argument (level : Level) (progress : Progress) (argument : String) : Except Usage Progress :=
  if progress.trailing then level.positional progress argument
  else
    match formOf argument with
    | .escape => .ok { progress with trailing := true }
    | .long name attached =>
      match level.longNames.lookup name with
      | none => .error .unknownArgument
      | some parameter => progress.named attached parameter
    | .letter letter attached =>
      match level.letters.lookup letter with
      | none => .error .unknownArgument
      | some (.flag flag) => progress.named none (.flag flag)
      | some (.setting setting) => progress.named attached (.setting setting)
    | .plain =>
      match progress.awaiting? with
      | some setting => .ok { progress with pending := some (setting, some argument) }
      | none => level.positional progress argument

def arguments (level : Level) : Progress → List String → Except Usage Draft
  | progress, [] => progress.settle.map (·.draft)
  | progress, argument :: rest =>
    match level.argument progress argument with
    | .error usage => .error usage
    | .ok progress => arguments level progress rest

end Level

structure Verification where
  file : String
  message : String
  stream : LogStream
  /-- Whether the message is the whole payload, without a newline behind it. -/
  exact : Bool
  /-- How many seconds to wait for the message. -/
  wait : Option Nat
  /-- How many milliseconds to pause between two looks. -/
  interval : Option Nat
deriving DecidableEq

inductive Command
  | parse (file : String) (json : Bool)
  | verify (verification : Verification)
  | scenarios
deriving DecidableEq

structure Invocation where
  config : Option String
  logJson : Bool
  command : Command
deriving DecidableEq

def required {α : Type} : Option α → Except Usage α
  | some value => .ok value
  | none => .error .missingArgument

def Level.command (level : Level) (draft : Draft) : Except Usage Command :=
  match level with
  | .top => .error .missingSubcommand
  | .parse => do
    let file ← required draft.file
    return .parse file draft.json
  | .verify => do
    let file ← required draft.file
    let message ← required draft.message
    return .verify ⟨file, message, draft.stream.getD .stdout, draft.exact, draft.wait,
      draft.interval⟩
  | .scenarios => .ok .scenarios

def helpTopic : List String → Usage
  | [] => .help
  | [topic] =>
    if topic = helpName || (Level.subcommands.lookup topic).isSome then .help
    else .invalidSubcommand
  | _ => .invalidSubcommand

/-- A subcommand behind what was given at the top. The subcommand's own arguments come first. -/
def subcommand (progress : Progress) (level : Level) (rest : List String) :
    Except Usage Invocation := do
  let draft ← level.arguments {} rest
  let command ← level.command draft
  let top ← progress.settle
  return ⟨draft.config <|> top.draft.config, draft.logJson || top.draft.logJson, command⟩

def withoutSubcommand (progress : Progress) : Usage :=
  match progress.settle with
  | .error usage => usage
  | .ok progress => if progress.draft = {} then .nothingGiven else .missingSubcommand

def readFrom : Progress → List String → Except Usage Invocation
  | progress, [] => .error (withoutSubcommand progress)
  | progress, argument :: rest =>
    let mayName := !progress.trailing && progress.awaiting?.isNone
    if mayName && argument = helpName then .error (helpTopic rest)
    else
      match if mayName then Level.subcommands.lookup argument else none with
      | some level => subcommand progress level rest
      | none =>
        match Level.top.argument progress argument with
        | .error usage => .error usage
        | .ok progress => readFrom progress rest

def readArguments (arguments : List String) : Except Usage Invocation := readFrom {} arguments

end ContainerCheck.CommandLine
