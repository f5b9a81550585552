import ContainerCheck.Text.Utf8

namespace ContainerCheck.Host

open ContainerCheck.Text

/-- A place in the file tree, by the names on the way from the root. -/
abbrev Place := List String

structure Walk where
  absolute : Bool
  names : List String
deriving Repr, DecidableEq

def splitSlashes : List Char → List (List Char)
  | [] => [[]]
  | c :: rest =>
    if c = '/' then [] :: splitSlashes rest
    else
      match splitSlashes rest with
      | [] => [[c]]
      | part :: parts => (c :: part) :: parts

/-- The names in a path, dots among them. -/
def namesOf (path : String) : List String :=
  ((splitSlashes path.toList).filter (· ≠ [])).map String.ofList

def isAbsolute (path : String) : Bool := path.toList.head? = some '/'

def endsInSlash (path : String) : Bool := path.toList.getLast? = some '/'

/-- The walk of a path; a slash at the end stays in the directory that it asks for. -/
def walkOf (path : String) : Walk :=
  let names := namesOf path
  ⟨isAbsolute path, if endsInSlash path ∧ names ≠ [] then names ++ ["."] else names⟩

/-- The paths of the directories on the way to a path, the last one first. A dot is no step. -/
def pathsAbove (path : String) : List String :=
  let names := ((namesOf path).filter (· ≠ ".")).dropLast
  let root := if isAbsolute path then "/" else ""
  (List.range names.length).reverse.map fun n => root ++ "/".intercalate (names.take (n + 1))

def pathOf (place : Place) : String := "/" ++ "/".intercalate place

/-- A path inside a directory; an absolute one stays as it is. -/
def joinPath (directory path : String) : String :=
  if isAbsolute path then path
  else if directory = "" then path
  else if endsInSlash directory then directory ++ path
  else directory ++ "/" ++ path

/-- The longest name of a file, in bytes. -/
def longestName : Nat := 255

/-- The longest path, in bytes. -/
def longestPath : Nat := 4095

end ContainerCheck.Host
