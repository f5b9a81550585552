namespace ContainerCheck.Log

def isStandardName (name : String) : Bool := name == "stdout" || name == "stderr"

inductive LogStream
  | stdout
  | stderr
  | other (name : String) (unknown : isStandardName name = false)
deriving DecidableEq

namespace LogStream

def name : LogStream → String
  | stdout => "stdout"
  | stderr => "stderr"
  | other name _ => name

def ofName (name : String) : LogStream :=
  if h : isStandardName name = false then other name h
  else if name = "stdout" then stdout
  else stderr

@[simp] theorem name_ofName (name : String) : (ofName name).name = name := by
  unfold ofName
  split
  · rfl
  · next h =>
    split
    · next hs => exact hs.symm
    · next hs => simp_all [isStandardName, LogStream.name]

@[simp] theorem ofName_name (stream : LogStream) : ofName stream.name = stream := by
  cases stream with
  | stdout => rfl
  | stderr => rfl
  | other name unknown => simp [ofName, LogStream.name, unknown]

theorem name_injective {a b : LogStream} (h : a.name = b.name) : a = b := by
  simpa using congrArg ofName h

end LogStream

end ContainerCheck.Log
