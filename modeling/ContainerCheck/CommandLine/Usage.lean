namespace ContainerCheck.CommandLine

inductive Usage
  /-- Help was asked for. -/
  | help
  /-- The version was asked for. -/
  | version
  /-- There are no arguments at all. -/
  | nothingGiven
  | missingSubcommand
  | invalidSubcommand
  | unknownArgument
  /-- An argument that may be given once was given again. -/
  | repeatedArgument
  /-- A flag was given a value. -/
  | unneededValue
  /-- A value is absent, empty or none of those that are possible. -/
  | invalidValue
  /-- A value is no number in range. -/
  | invalidNumber
  | missingArgument
deriving Repr, DecidableEq

/-- The exit code: questions are no mistakes. -/
def Usage.exitCode : Usage → Nat
  | help => 0
  | version => 0
  | _ => 2

def Usage.message : Usage → String
  | help => "usage: containercheck [OPTIONS] parse|verify|scenarios|help [ARGUMENTS]"
  | version => "containercheck 0.1.0"
  | nothingGiven => "a subcommand is required: parse, verify, scenarios or help"
  | missingSubcommand => "a subcommand is required: parse, verify, scenarios or help"
  | invalidSubcommand => "unrecognized subcommand"
  | unknownArgument => "unexpected argument"
  | repeatedArgument => "an argument cannot be used multiple times"
  | unneededValue => "a flag takes no value"
  | invalidValue => "an argument has no value or none that is possible"
  | invalidNumber => "a value is not a number in range"
  | missingArgument => "a required argument was not provided"

end ContainerCheck.CommandLine
