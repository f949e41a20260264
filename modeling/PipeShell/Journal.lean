import PipeShell.Fault
import PipeShell.Text.Case

namespace PipeShell

namespace Journal

inductive Level where
  | debug
  | info
  | warning
  | error
  | critical
  deriving DecidableEq, Repr

namespace Level

def all : List Level := [.debug, .info, .warning, .error, .critical]

def number : Level → Int
  | .debug => 10
  | .info => 20
  | .warning => 30
  | .error => 40
  | .critical => 50

def name : Level → String
  | .debug => "DEBUG"
  | .info => "INFO"
  | .warning => "WARNING"
  | .error => "ERROR"
  | .critical => "CRITICAL"

def ofName? (name : String) : Option Level :=
  all.find? (·.name = Text.basicUpper name)

def ofNumber? (number : Int) : Option Level :=
  all.find? (·.number = number)

def unknownMessage (name : String) : String :=
  "Unknown log level '" ++ name ++ "'. Valid values: " ++
    Text.join ", " (all.map Level.name)

def ofName (name : String) : Except Fault Level :=
  match ofName? name with
  | some level => .ok level
  | none => .error (.badValue (unknownMessage name))

/-- Numbers between the levels have a label of their own. -/
def label (number : Int) : String :=
  match ofNumber? number with
  | some level => level.name
  | none => "Level " ++ Json.intText number

/-- The code that switches a terminal to the colour of the level. -/
def colour : Level → String
  | .debug => "\x1b[2m"
  | .info => "\x1b[32m"
  | .warning => "\x1b[33m"
  | .error => "\x1b[31m"
  | .critical => "\x1b[1;31m"

end Level

def colourEnd : String := "\x1b[0m"

structure Note where
  level : Int
  subsystem : String
  message : String
  context : Table Json
  report : Option String

namespace Note

def debug (subsystem message : String) (context : Table Json) : Note :=
  ⟨Level.debug.number, subsystem, message, context, none⟩

def info (subsystem message : String) (context : Table Json) : Note :=
  ⟨Level.info.number, subsystem, message, context, none⟩

def warning (subsystem message : String) (context : Table Json) : Note :=
  ⟨Level.warning.number, subsystem, message, context, none⟩

def error (subsystem message : String) (context : Table Json) : Note :=
  ⟨Level.error.number, subsystem, message, context, none⟩

/-- A note about a fault. Without one the report says that there is none. -/
def fault (subsystem message : String) (context : Table Json)
    (fault : Option Fault) : Note :=
  ⟨Level.error.number, subsystem, message, context,
    some (match fault with
      | some cause => cause.report
      | none => "NoneType: None")⟩

end Note

/-- A note that was kept, with the time in milliseconds since the epoch. -/
structure Entry where
  time : Int
  note : Note

def Entry.label (entry : Entry) : String :=
  Level.label entry.note.level

def number (width : Nat) (n : Int) : String :=
  if n < 0 then "-" ++ Text.zeroPad (width - 1) (Json.intText (-n))
  else Text.zeroPad width (Json.intText n)

def timeOfDay (time : Int) : String :=
  let seconds := (time.fdiv 1000).fmod 86400
  number 2 (seconds / 3600) ++ ":" ++ number 2 (seconds / 60 % 60) ++ ":" ++
    number 2 (seconds % 60)

def shownLevel (colours : Bool) (level : Int) : String :=
  let label := Text.padRight 8 (Level.label level)
  match colours, Level.ofNumber? level with
  | true, some known => known.colour ++ label ++ colourEnd
  | _, _ => label

def shownContext (context : Table Json) : String :=
  if context.isEmpty then ""
  else
    " \x7b" ++ Text.join " " (context.map fun (key, value) =>
      key ++ "=" ++ value.display) ++ "\x7d"

def Entry.line (entry : Entry) (colours : Bool) : String :=
  let note := entry.note
  "[" ++ timeOfDay entry.time ++ "." ++ number 3 (entry.time.tmod 1000) ++ "] " ++
    shownLevel colours note.level ++ " " ++
    (if note.subsystem = "" then "" else note.subsystem ++ ": ") ++
    note.message ++ shownContext note.context ++
    match note.report with
    | some report => "\n" ++ report
    | none => ""

def Entry.summary (entry : Entry) : String :=
  timeOfDay entry.time ++ " [" ++ entry.label ++ "] [" ++
    entry.note.subsystem ++ "] " ++
    entry.note.message

def newest {α : Type} (limit : Nat) (entries : List α) : List α :=
  entries.drop (entries.length - limit)

end Journal

structure Journal where
  level : Int
  capacity : Nat
  entries : List Journal.Entry
  /-- Whether lines also go to the console, and whether in colour. -/
  console : Option Bool
  file : Option (List String)

namespace Journal

def usualLevel : Int := Level.warning.number

def leastLevel (journal : Journal) : Int :=
  if journal.level = 0 then usualLevel else journal.level

def admits (journal : Journal) (level : Int) : Bool :=
  0 < level && journal.leastLevel ≤ level

def keep (journal : Journal) (entry : Entry) : Journal :=
  { journal with entries := newest journal.capacity (journal.entries ++ [entry]) }

def clear (journal : Journal) : Journal :=
  { journal with entries := [] }

/-- The entries with at least a level; every entry must then have a level with a
name. -/
def atLeast (level : Option String) (entries : List Entry) :
    Except Fault (List Entry) :=
  match level with
  | none => .ok entries
  | some "" => .ok entries
  | some name => do
      let least ← Level.ofName name
      let levels ← entries.mapM fun entry => Level.ofName entry.label
      return ((entries.zip levels).filter fun (_, level) =>
        least.number ≤ level.number).map (·.1)

def ofSubsystem (subsystem : Option String) (entries : List Entry) : List Entry :=
  match subsystem with
  | none => entries
  | some name =>
      if name = "" then entries else entries.filter (·.note.subsystem = name)

/-- The newest entries that pass the filters, oldest first. No limit keeps all of
them. -/
def select (level subsystem : Option String) (limit : Int) (entries : List Entry) :
    Except Fault (List Entry) := do
  let chosen := ofSubsystem subsystem (← atLeast level entries)
  return if 0 < limit then newest limit.toNat chosen else chosen

end Journal

end PipeShell
