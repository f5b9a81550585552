import ContainerCheck.World

namespace ContainerCheck

open ContainerCheck.Host

/-- A step that may fail and leaves a world behind in either case. -/
def Session (σ α : Type) : Type := World σ → Except Error α × World σ

def hostResult {α : Type} (path : String) : Except IoFault α → Except Error α
  | .ok value => .ok value
  | .error fault => .error (.io path fault)

def contentRecords (content : List UInt8) : Except Error (List Log.Record) :=
  match Log.readRecords content with
  | .error malformed => .error (.ofMalformed malformed)
  | .ok records => .ok records

def recordsOf (path : String) (content : Except IoFault (List UInt8)) :
    Except Error (List Log.Record) :=
  match hostResult path content with
  | .error error => .error error
  | .ok content => contentRecords content

namespace Session

variable {σ α β : Type}

def pure (value : α) : Session σ α := fun w => (.ok value, w)

def fail (error : Error) : Session σ α := fun w => (.error error, w)

def bind (first : Session σ α) (next : α → Session σ β) : Session σ β := fun w =>
  match first w with
  | (.ok value, w) => next value w
  | (.error error, w) => (.error error, w)

instance : Monad (Session σ) where
  pure := Session.pure
  bind := Session.bind

theorem pure_run (value : α) (w : World σ) :
    (Pure.pure value : Session σ α) w = (.ok value, w) := rfl

theorem bind_run (first : Session σ α) (next : α → Session σ β) (w : World σ) :
    (first >>= next) w =
      match first w with
      | (.ok value, w) => next value w
      | (.error error, w) => (.error error, w) := rfl

def lift (result : Except Error α) : Session σ α := fun w => (result, w)

def require (condition : Bool) (message : String) : Session σ Unit :=
  if condition then Session.pure () else fail (.assertion message)

def inspect (deed : Deed) (read : Tree → Except Error α) : Session σ α := fun w =>
  (read w.tree, w.noteNow deed)

/-- Changes the file tree; a failure is one at the path and changes nothing. -/
def changeTree (deed : Deed) (path : String) (change : Tree → Except IoFault Tree) :
    Session σ Unit := fun w =>
  match change w.tree with
  | .ok tree => (.ok (), (w.noteNow deed).setTree tree)
  | .error fault => (.error (.io path fault), w.noteNow deed)

/-- Cleans up behind a step, whatever its outcome, which stays as it is. -/
def ensuring (step : Session σ α) (cleanup : World σ → World σ) : Session σ α := fun w =>
  match step w with
  | (result, w) => (result, cleanup w)

theorem ensuring_run (step : Session σ α) (cleanup : World σ → World σ) (w : World σ) :
    step.ensuring cleanup w = ((step w).1, cleanup (step w).2) := rfl

def orDiscard (directory : String) (step : Session σ α) : Session σ α := fun w =>
  match step w with
  | (.ok value, w) => (.ok value, w)
  | (.error error, w) => (.error error, w.discard directory)

def uniqueName (stem : String) : Session σ String := fun w =>
  (.ok (stem ++ World.freshUuid w.drawn), { w with drawn := w.drawn + 1 })

def makeTemporary (stem : String) : Session σ String := fun w =>
  match (w.noteNow (.makeTemporary stem)).makeTemporary w.home stem World.nameAttempts with
  | (made, w') => (hostResult w.home made, w')

def rename (source target : String) : Session σ Unit :=
  changeTree (.rename source target) source fun tree => tree.rename source target

def makeLink (path target : String) : Session σ Unit :=
  changeTree (.makeLink path target) path fun tree => tree.makeLink path target

def makeFile (path : String) : Session σ Unit :=
  changeTree (.makeFile path) path fun tree => tree.write path []

def readLog (path : String) : Session σ (List Log.Record) :=
  inspect (.readLog path) fun tree => recordsOf path (tree.read path)

def pathExists (path : String) : Session σ Bool :=
  inspect (.look path) fun tree => hostResult path (tree.exists? path)

end Session

end ContainerCheck
