import ContainerCheck.Session

namespace ContainerCheck.Check

open ContainerCheck.Host

def flagFile : String := "testVolume.file"

def linkPath (target : String) : String := target ++ "-symlink"

namespace HostPath

variable {σ α : Type}

def create (owner : String) : Session σ String := do
  let path ← Session.makeTemporary ("test" ++ owner)
  Session.orDiscard path do
    Session.makeFile (joinPath path flagFile)
    return path

def link (target : String) : Session σ String := do
  let path := linkPath target
  Session.makeLink path target
  return path

end HostPath

/-- Something that a check made on the host, and that is removed when it is dropped. -/
inductive Guard
  | directory (path : String)
  | link (path : String)
deriving DecidableEq

def Guard.path : Guard → String
  | directory path => path
  | link path => path

/-- Removes what is guarded; what is gone already stays gone. -/
def Guard.drop {σ : Type} : Guard → World σ → World σ
  | directory path => fun w => w.discard path
  | link path => fun w => w.discardFile path

namespace HostPath

variable {σ α : Type}

def withDirectory (owner : String) (body : String → Session σ α) : Session σ α := do
  let path ← create owner
  (body path).ensuring (Guard.directory path).drop

def withLink (target : String) (body : String → Session σ α) : Session σ α := do
  let path ← link target
  (body path).ensuring (Guard.link path).drop

end HostPath

/-- Guards that are held for any time, in the order in which they were made. -/
structure Shelf (σ : Type) where
  guards : List Guard
  world : World σ

namespace Shelf

variable {σ : Type}

inductive Step
  | create (owner : String)
  | link (target : String)
  /-- Drops the guard at a place. -/
  | drop (index : Nat)
deriving DecidableEq

def keep (shelf : Shelf σ) (guard : String → Guard) (made : Session σ String) :
    Except Error String × Shelf σ :=
  match made shelf.world with
  | (.ok path, w) => (.ok path, ⟨shelf.guards ++ [guard path], w⟩)
  | (.error error, w) => (.error error, { shelf with world := w })

def drop (shelf : Shelf σ) (index : Nat) : Shelf σ :=
  match shelf.guards[index]? with
  | none => shelf
  | some guard => ⟨shelf.guards.eraseIdx index, guard.drop shelf.world⟩

def step (shelf : Shelf σ) : Step → Except Error (Option String) × Shelf σ
  | .create owner =>
    let (made, shelf) := shelf.keep .directory (HostPath.create owner)
    (made.map some, shelf)
  | .link target =>
    let (made, shelf) := shelf.keep .link (HostPath.link target)
    (made.map some, shelf)
  | .drop index => (.ok none, shelf.drop index)

def clear (shelf : Shelf σ) : Shelf σ :=
  ⟨[], shelf.guards.foldl (fun w guard => guard.drop w) shelf.world⟩

end Shelf

end ContainerCheck.Check
