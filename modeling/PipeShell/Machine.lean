import PipeShell.Journal

/-! The machine that a shell runs on: its files, the files that are open for writing,
the console, the clock and the journal. -/

namespace PipeShell

structure Console where
  out : String
  err : String
  isTerminal : Bool

structure OutputFile where
  path : String
  names : List String
  append : Bool
  offset : Nat
  closed : Bool
  deriving DecidableEq, Repr

structure Machine where
  userHome : String
  files : FileTree
  outputs : List OutputFile
  console : Console
  clock : Int
  journal : Option Journal

namespace Machine

def new (files : FileTree) (userHome : String) (clock : Int) (isTerminal : Bool) :
    Machine :=
  { userHome, files, outputs := [], console := ⟨"", "", isTerminal⟩, clock,
    journal := none }

def print (machine : Machine) (text : String) : Machine :=
  { machine with console :=
    { machine.console with out := machine.console.out ++ text } }

def printError (machine : Machine) (text : String) : Machine :=
  { machine with console :=
    { machine.console with err := machine.console.err ++ text } }

/-- Takes what the console has shown since the last time. -/
def takeShown (machine : Machine) : Machine × String × String :=
  ({ machine with console := { machine.console with out := "", err := "" } },
    machine.console.out, machine.console.err)

def cannotOpen (path : String) (fault : FileTree.Fault) : Fault :=
  .failure (.runtime ("cannot open " ++ path ++ ": " ++ fault.message)
    (some path) [])

/-- Opens a file for writing; the number stands for it from then on. -/
def openOutput (machine : Machine) (path : String) (append : Bool) :
    Except Fault (Machine × Nat) :=
  if FileTree.hasZero path then .error .zeroInPath
  else
    match machine.files.openForWriting path append with
    | .error fault => .error (cannotOpen path fault)
    | .ok (files, names) =>
        .ok ({ machine with
          files
          outputs := machine.outputs ++ [⟨path, names, append, 0, false⟩] },
            machine.outputs.length)

def setOutput (machine : Machine) (handle : Nat) (output : OutputFile) : Machine :=
  { machine with outputs := machine.outputs.set handle output }

def closedFile (path : String) : Fault :=
  .failure (.runtime ("write to closed file: " ++ path) (some path) [])

def writeOutput (machine : Machine) (handle : Nat) (text : String) :
    Except Fault Machine :=
  match machine.outputs[handle]? with
  | none => .ok machine
  | some output =>
      if output.closed then .error (closedFile output.path)
      else
        let bytes := Text.Utf8.encode text
        if output.append then
          .ok { machine with files := machine.files.append output.names bytes }
        else
          .ok
            { machine with
              files := machine.files.writeAt output.names output.offset bytes
              outputs := machine.outputs.set handle
                { output with offset := output.offset + bytes.length } }

def closeOutput (machine : Machine) (handle : Nat) : Machine :=
  match machine.outputs[handle]? with
  | none => machine
  | some output => machine.setOutput handle { output with closed := true }

structure JournalSettings where
  level : Int
  file : Option String
  colours : Bool
  console : Bool
  capacity : Int

def JournalSettings.usual : JournalSettings :=
  ⟨Journal.usualLevel, none, true, false, 1000⟩

def maxCapacity : Nat := Nat.pow 2 63 - 1

def capacityFor (wanted : Int) : Except Fault Nat :=
  if maxCapacity < wanted then .error (.overflow "the capacity is too large")
  else .ok (max 1 wanted.toNat)

/-- Opens the file of a journal, with the directories above it. -/
def openJournalFile (machine : Machine) (path : String) :
    Machine × Except Fault (List String) :=
  if FileTree.hasZero path then (machine, .error .zeroInPath)
  else
    match machine.files.ensureParent path with
    | (files, .error fault) => ({ machine with files }, .error (.storage fault))
    | (files, .ok ()) =>
        match files.openForWriting (Path.absolute path) true with
        | .error fault => ({ machine with files }, .error (.storage fault))
        | .ok (files, names) => ({ machine with files }, .ok names)

def newJournal (machine : Machine) (settings : JournalSettings) (capacity : Nat)
    (file : Option (List String)) : Machine :=
  { machine with
    journal := some
      { level := settings.level
        capacity
        entries := []
        console :=
          if settings.console then
            some (settings.colours && machine.console.isTerminal) else none
        file } }

def startJournal (machine : Machine) (settings : JournalSettings) :
    Machine × Except Fault Unit :=
  if machine.journal.isSome then (machine, .ok ())
  else
    match capacityFor settings.capacity, settings.file.getD "" with
    | .error fault, _ => (machine, .error fault)
    | .ok capacity, "" => (machine.newJournal settings capacity none, .ok ())
    | .ok capacity, path =>
        match machine.openJournalFile path with
        | (opened, .error fault) => (opened, .error fault)
        | (opened, .ok names) =>
            (opened.newJournal settings capacity (some names), .ok ())

def stopJournal (machine : Machine) : Machine :=
  { machine with journal := none }

def clearJournal (machine : Machine) : Machine :=
  { machine with journal := machine.journal.map Journal.clear }

def publish (machine : Machine) (journal : Journal) (entry : Journal.Entry) :
    Machine :=
  let kept := { machine with journal := some (journal.keep entry) }
  let shown :=
    match journal.console with
    | none => kept
    | some colours => kept.printError (entry.line colours ++ "\n")
  match journal.file with
  | none => shown
  | some names =>
      { shown with
        files := shown.files.append names
          (Text.Utf8.encode (entry.line false ++ "\n")) }

def note (machine : Machine) (note : Journal.Note) : Machine :=
  match machine.journal with
  | none => machine
  | some journal =>
      if journal.admits note.level then machine.publish journal ⟨machine.clock, note⟩
        else machine

def noteAll (machine : Machine) (notes : List Journal.Note) : Machine :=
  notes.foldl Machine.note machine

def journalEntries (machine : Machine) (level subsystem : Option String)
    (limit : Int) :
    Except Fault (List Journal.Entry) :=
  match machine.journal with
  | none => .ok []
  | some journal => Journal.select level subsystem limit journal.entries

end Machine

end PipeShell
