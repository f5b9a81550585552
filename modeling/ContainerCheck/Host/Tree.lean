import ContainerCheck.Host.Fault
import ContainerCheck.Host.Path

namespace ContainerCheck.Host

open ContainerCheck.Text

inductive Node
  | file (content : List UInt8)
  | directory
  | link (target : String)
deriving DecidableEq

/-- What there is at each place, and the directory that relative paths start from. -/
structure Tree where
  entries : List (Place × Node)
  home : Place

namespace Tree

/-- What there is at a place; the root is always a directory. -/
def find? (tree : Tree) (place : Place) : Option Node :=
  if place = [] then some .directory else tree.entries.lookup place

def put (tree : Tree) (place : Place) (node : Node) : Tree :=
  { tree with entries := (place, node) :: tree.entries.filter fun e => e.1 ≠ place }

/-- A tree without a place and everything below it. -/
def prune (tree : Tree) (place : Place) : Tree :=
  { tree with entries := tree.entries.filter fun e => ¬ place.isPrefixOf e.1 }

def move (tree : Tree) (source target : Place) : Tree :=
  let moved := tree.entries.filter fun e => source.isPrefixOf e.1
  let kept := ((tree.prune target).prune source).entries
  { tree with entries := moved.map (fun e => (target ++ e.1.drop source.length, e.2)) ++ kept }

def children (tree : Tree) (place : Place) : List String :=
  tree.entries.filterMap fun e =>
    if e.1 ≠ [] ∧ e.1.dropLast = place then e.1.getLast? else none

def listing (tree : Tree) (place : Place) : List String :=
  (tree.children place).mergeSort fun a b => decide (a ≤ b)

def isDirectory (tree : Tree) (place : Place) : Bool := tree.find? place == some .directory

/-- What a walk finds where it stands. At home it stands in a directory, even in a removed one. -/
def findFrom? (tree : Tree) (place : Place) : Option Node :=
  if place = tree.home then some .directory else tree.find? place

inductive Stop
  /-- The place it leads to, which may hold nothing yet. -/
  | arrived (place : Place)
  /-- A link on the way in `directory`, and the names that are left. -/
  | atLink (directory : Place) (target : String) (names : List String)

/-- Walks to the next link. The last name is followed through a link only if `follow` is set. -/
def descend (tree : Tree) (follow : Bool) : Place → List String → Except IoFault Stop
  | place, [] => .ok (.arrived place)
  | place, name :: names =>
    match tree.findFrom? place with
    | none => .error .noEntry
    | some (.file _) => .error .notDirectory
    | some (.link _) => .error .notDirectory
    | some .directory =>
      if name = "." then descend tree follow place names
      else if name = ".." then descend tree follow place.dropLast names
      else if longestName < byteLength name.toList then .error .nameTooLong
      else
        match tree.find? (place ++ [name]) with
        | none => if names = [] then .ok (.arrived (place ++ [name])) else .error .noEntry
        | some (.link target) =>
          if names = [] ∧ ¬ follow then .ok (.arrived (place ++ [name]))
          else .ok (.atLink place target names)
        | some _ => descend tree follow (place ++ [name]) names

def walk (tree : Tree) (follow : Bool) : Nat → Place → List String → Except IoFault Place
  | links, place, names =>
    match tree.descend follow place names with
    | .error fault => .error fault
    | .ok (.arrived place) => .ok place
    | .ok (.atLink directory target rest) =>
      match links with
      | 0 => .error .tooManyLinks
      | links + 1 =>
        let inner := walkOf target
        walk tree follow links (if inner.absolute then [] else directory) (inner.names ++ rest)

def mostLinks : Nat := 40

/-- Walks along names from where a path starts. A path that is empty or too long or holds a NUL
starts nowhere. -/
def walkFrom (tree : Tree) (follow : Bool) (path : String) (names : List String) :
    Except IoFault Place :=
  if '\x00' ∈ path.toList then .error .nulInPath
  else if path = "" then .error .noEntry
  else if longestPath < byteLength path.toList then .error .nameTooLong
  else tree.walk follow mostLinks (if isAbsolute path then [] else tree.home) names

def resolve (tree : Tree) (follow : Bool) (path : String) : Except IoFault Place :=
  tree.walkFrom follow path (walkOf path).names

/-- Where a path's last name stands: the directory it is in, and the name. -/
structure Entry where
  directory : Place
  name : String

def Entry.place (entry : Entry) : Place := entry.directory ++ [entry.name]

/-- The entry that a path names, which may be free. Dots and the root name none, and fail as
`unnamed`. -/
def entryOf (tree : Tree) (unnamed : IoFault) (path : String) : Except IoFault Entry := do
  let names := namesOf path
  let directory ← tree.walkFrom true path (names.dropLast ++ ["."])
  match names.getLast? with
  | none => .error unnamed
  | some name => if name = "." ∨ name = ".." then .error unnamed else return ⟨directory, name⟩

/-- What there is at an entry, for which its directory must still be there. -/
def look (tree : Tree) (entry : Entry) : Except IoFault (Option Node) :=
  if ¬ tree.isDirectory entry.directory then .error .noEntry
  else if longestName < byteLength entry.name.toList then .error .nameTooLong
  else .ok (tree.find? entry.place)

end Tree

end ContainerCheck.Host
