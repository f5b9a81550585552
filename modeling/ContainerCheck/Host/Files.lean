import ContainerCheck.Host.Tree

namespace ContainerCheck.Host

open ContainerCheck.Text

namespace Tree

def read (tree : Tree) (path : String) : Except IoFault (List UInt8) := do
  match tree.findFrom? (← tree.resolve true path) with
  | some (.file content) => return content
  | some _ => .error .isDirectory
  | none => .error .noEntry

/-- Whether a path leads to something; not being able to tell is a failure. -/
def exists? (tree : Tree) (path : String) : Except IoFault Bool :=
  match tree.resolve true path with
  | .ok place => .ok (tree.findFrom? place).isSome
  | .error fault => if fault = .noEntry then .ok false else .error fault

/-- Puts `change` of the old content into a file, which is made if it is not there. -/
def store (tree : Tree) (path : String) (change : List UInt8 → List UInt8) :
    Except IoFault Tree := do
  let place ← tree.resolve true path
  match tree.findFrom? place with
  | some .directory => .error .isDirectory
  | some (.file content) => return tree.put place (.file (change content))
  | _ =>
    if tree.isDirectory place.dropLast then return tree.put place (.file (change []))
    else .error .noEntry

def write (tree : Tree) (path : String) (content : List UInt8) : Except IoFault Tree :=
  tree.store path fun _ => content

def append (tree : Tree) (path : String) (content : List UInt8) : Except IoFault Tree :=
  tree.store path fun old => old ++ content

/-- Puts something at a path that must be free. Only a directory may have a slash behind it. -/
def create (tree : Tree) (path : String) (node : Node) : Except IoFault Tree := do
  let entry ← tree.entryOf .alreadyExists path
  match ← tree.look entry with
  | some _ => .error .alreadyExists
  | none =>
    if endsInSlash path ∧ node ≠ .directory then .error .noEntry
    else return tree.put entry.place node

def makeDirectory (tree : Tree) (path : String) : Except IoFault Tree :=
  tree.create path .directory

/-- Makes a link with a target text, which need not lead anywhere. -/
def makeLink (tree : Tree) (path target : String) : Except IoFault Tree :=
  if '\x00' ∈ target.toList then .error .nulInPath
  else if target = "" then .error .noEntry
  else if longestPath < byteLength target.toList then .error .nameTooLong
  else tree.create path (.link target)

def leadsToDirectory (tree : Tree) (path : String) : Bool :=
  match tree.resolve true path with
  | .ok place => tree.findFrom? place == some .directory
  | .error _ => false

def ensureDirectory (tree : Tree) (path : String) : Except IoFault Tree :=
  match tree.makeDirectory path with
  | .ok tree => .ok tree
  | .error fault => if tree.leadsToDirectory path then .ok tree else .error fault

/-- The outcome of a change that happens as a whole or not at all. -/
def orUnchanged (tree : Tree) : Except IoFault Tree → Except IoFault Unit × Tree
  | .ok changed => (.ok (), changed)
  | .error fault => (.error fault, tree)

/-- Makes the first of some directories, each of which is in the next one, and before it those
that are missing for it. What has been made stays, also if a later one cannot be made. -/
def makeChain : Tree → List String → Except IoFault Unit × Tree
  | tree, [] => (.ok (), tree)
  | tree, path :: above =>
    match tree.ensureDirectory path with
    | .ok tree => (.ok (), tree)
    | .error fault =>
      if fault ≠ .noEntry then (.error fault, tree)
      else
        match makeChain tree above with
        | (.ok (), tree) => tree.orUnchanged (tree.ensureDirectory path)
        | failed => failed

def makeDirectories (tree : Tree) (path : String) : Except IoFault Unit × Tree :=
  if path = "" then (.ok (), tree) else tree.makeChain (path :: pathsAbove path)

def removeFile (tree : Tree) (path : String) : Except IoFault Tree := do
  let entry ← tree.entryOf .isDirectory path
  match ← tree.look entry with
  | none => .error .noEntry
  | some .directory => .error .isDirectory
  | some _ => if endsInSlash path then .error .notDirectory else return tree.prune entry.place

def removeAll (tree : Tree) (path : String) : Except IoFault Tree := do
  let place ← tree.resolve false path
  match tree.find? place with
  | none => .error .noEntry
  | some (.file _) => .error .notDirectory
  | some _ => return tree.prune place

/-- Renames an entry over another one of its kind, or to a free path. Only a directory may have a
slash behind its paths. -/
def rename (tree : Tree) (source target : String) : Except IoFault Tree := do
  let old ← tree.entryOf .busy source
  let new ← tree.entryOf .busy target
  match ← tree.look old with
  | none => .error .noEntry
  | some .directory =>
    let there ← tree.look new
    if old.place = new.place then return tree
    else if old.place.isPrefixOf new.place then .error .invalidArgument
    else
      match there with
      | none => return tree.move old.place new.place
      | some .directory =>
        if tree.children new.place ≠ [] then .error .notEmpty
        else return tree.move old.place new.place
      | some _ => .error .notDirectory
  | some _ =>
    let there ← tree.look new
    if endsInSlash source ∨ endsInSlash target then .error .notDirectory
    else if there = some .directory then .error .isDirectory
    else if old.place = new.place then return tree
    else return tree.move old.place new.place

def list (tree : Tree) (path : String) : Except IoFault (List String) := do
  let place ← tree.resolve true path
  match tree.findFrom? place with
  | some .directory => return tree.listing place
  | some _ => .error .notDirectory
  | none => .error .noEntry

end Tree

/-- A change to the file tree that something outside makes. -/
inductive FileAction
  | write (path : String) (content : List UInt8)
  | append (path : String) (content : List UInt8)
  | remove (path : String)
  | rename (path target : String)
  | makeDirectory (path : String)
  | link (path target : String)

def FileAction.apply (action : FileAction) (tree : Tree) : Except IoFault Unit × Tree :=
  match action with
  | write path content => tree.orUnchanged (tree.write path content)
  | append path content => tree.orUnchanged (tree.append path content)
  | remove path => tree.orUnchanged (tree.removeFile path)
  | rename path target => tree.orUnchanged (tree.rename path target)
  | makeDirectory path => tree.makeDirectories path
  | link path target => tree.orUnchanged (tree.makeLink path target)

def FileAction.attempt (action : FileAction) (tree : Tree) : Tree := (action.apply tree).2

end ContainerCheck.Host
