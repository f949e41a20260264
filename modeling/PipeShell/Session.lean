import PipeShell.Channel.Reader
import PipeShell.Channel.Writer
import PipeShell.Registry

/-! What running commands act on, and the actions themselves. An action either yields
a value or ends in a fault; what it did before the fault stays done. -/

namespace PipeShell

open Channel (Writer Source Cursor)

inductive View where
  | shared
  | absent
  | apart (registry : Registry)

/-- What the owner of a pipeline offers to its commands. -/
structure Owner (σ : Type) where
  directoryChanged : String → σ → σ
  history : σ → List String
  clearHistory : Option (σ → σ)
  /-- Deletes the entry at a position that counts from one; true if there was one. -/
  deleteEntry : Option (Int → σ → Bool × σ)

structure Session (σ : Type) where
  machine : Machine
  cancelled : Bool
  out : Writer
  err : Writer
  directory : String
  previous : Option String
  registry : Registry
  view : View
  owner : σ

structure Context where
  input : Source
  arguments : List String
  directory : String
  home : String
  previous : Option String
  history : List String
  canMove : Bool

def Context.resolve (context : Context) (path : String) : String :=
  Path.resolve path context.directory context.home

abbrev Act (σ : Type) := ExceptT Fault (StateM (Session σ))

namespace Act

variable {σ : Type}

def session : Act σ (Session σ) := get

def files : Act σ FileTree := do
  return (← session).machine.files

def lift {α : Type} : Except Fault α → Act σ α
  | .ok value => pure value
  | .error fault => throw fault

def check : Act σ Unit := do
  if (← session).cancelled then throw Fault.cancellation

def cancel : Act σ Unit :=
  modify fun session => { session with cancelled := true }

/-- Runs an action and then tidies up, however the action ended. -/
def afterwards {α : Type} (tidy : Session σ → Session σ) (act : Act σ α) : Act σ α :=
  ExceptT.mk do
    let result ← act.run
    modify tidy
    return result

/-- Runs an action with another output, and says what has become of that output. -/
def withOutput {α : Type} (writer : Writer) (act : Act σ α) : Act σ (α × Writer) :=
  ExceptT.mk do
    let own := (← get).out
    modify fun session => { session with out := writer }
    let result ← act.run
    let written := (← get).out
    modify fun session => { session with out := own }
    return result.map fun value => (value, written)

def onMachine (change : Machine → Machine) : Act σ Unit :=
  modify fun session => { session with machine := change session.machine }

def note (note : Journal.Note) : Act σ Unit :=
  onMachine fun machine => machine.note note

def write (text : String) : Act σ Unit := do
  check
  let session ← session
  let (out, machine) ← lift (session.out.write session.machine text)
  set { session with out, machine }

def writeLine (line : String) : Act σ Unit := do
  check
  let session ← session
  let (out, machine) ← lift (session.out.writeLine session.machine line)
  set { session with out, machine }

def reportLine (line : String) : Act σ Unit := do
  let session ← session
  let (err, machine) ← lift (session.err.writeLine session.machine line)
  set { session with err, machine }

def errorLine (line : String) : Act σ Unit := do
  check
  reportLine line

def clearOutput : Act σ Unit := do
  let session ← session
  let out ← lift session.out.clear
  set { session with out }

def writeLines : List String → Act σ Unit
  | [] => pure ()
  | line :: rest => do
      writeLine line
      writeLines rest

def start (source : Source) : Act σ Cursor := do
  lift (Cursor.start (← session).cancelled source)

def next (cursor : Cursor) : Act σ (Option (String × Cursor)) := do
  let session ← session
  lift (cursor.next session.cancelled session.machine.files)

/-- Folds over the lines that a cursor still has, as they are read. -/
def foldLines {α : Type} (step : α → String → Act σ α) :
    (bound : Nat) → α → Cursor → Act σ α
  | 0, _, _ => throw .endless
  | bound + 1, value, cursor => do
      match ← next cursor with
      | none => return value
      | some (line, rest) => foldLines step bound (← step value line) rest

def foldSource {α : Type} (step : α → String → Act σ α) (initial : α)
    (source : Source) :
    Act σ α := do
  let cursor ← start source
  foldLines step (cursor.bound (← files)) initial cursor

def eachLine (step : String → Act σ Unit) (source : Source) : Act σ Unit :=
  foldSource (fun _ line => step line) () source

def readLines (source : Source) : Act σ (List String) := do
  let lines ← foldSource (fun lines line => pure (lines.push line)) #[] source
  return lines.toList

def eachOfFirst (step : String → Act σ Unit) : (count : Nat) → Cursor → Act σ Unit
  | 0, _ => pure ()
  | count + 1, cursor => do
      match ← next cursor with
      | none => pure ()
      | some (line, rest) =>
          step line
          eachOfFirst step count rest

def changeDirectory (owner : Owner σ) (path : String) : Act σ Unit :=
  modify fun session =>
    { session with
      previous := some session.directory
      directory := path
      owner := owner.directoryChanged path session.owner }

def nothingToCall : Fault := .notCallable Value.null.typeName

def clearHistory (owner : Owner σ) : Act σ Unit :=
  match owner.clearHistory with
  | none => throw nothingToCall
  | some clear => modify fun session => { session with owner := clear session.owner }

def deleteEntry (owner : Owner σ) (position : Int) : Act σ Bool :=
  match owner.deleteEntry with
  | none => throw nothingToCall
  | some delete => do
      let session ← session
      let (deleted, state) := delete position session.owner
      set { session with owner := state }
      return deleted

/-- The registry that commands see, unless they see none. -/
def visibleRegistry : Act σ (Option Registry) := do
  let session ← session
  return match session.view with
    | .shared => some session.registry
    | .absent => none
    | .apart registry => some registry

def unregister (name : String) : Act σ Bool := do
  let session ← session
  match session.view with
  | .absent =>
      throw (.absentMember "'NoneType' object has no attribute 'unregister'")
  | .shared =>
      let (removed, registry) := session.registry.unregister name
      set { session with registry }
      return removed
  | .apart registry =>
      let (removed, registry) := registry.unregister name
      set { session with view := .apart registry }
      return removed

end Act

end PipeShell
