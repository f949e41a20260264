import PipeShell.Pattern.Reader
import PipeShell.Pattern.Search
import PipeShell.Program
import PipeShell.Session

namespace PipeShell.Builtin

open Act

variable {σ : Type}

def failing (message : String) : Act σ ExitCode := do
  errorLine message
  return .runtimeError

def misused (message : String) : Act σ ExitCode := do
  errorLine message
  return .usageError

/-- The lines of a file named as an argument, unless there is no such file. -/
def fileSource (command : String) (context : Context) (path : String) :
    Act σ (Option Channel.Source) := do
  let resolved := context.resolve path
  let files ← files
  if !files.contains resolved then
    errorLine (command ++ ": " ++ path ++ ": No such file or directory")
    return none
  else if files.isDirectory resolved then
    errorLine (command ++ ": " ++ path ++ ": Is a directory")
    return none
  else
    return some (.file resolved)

def runEcho (context : Context) (noNewline : Bool) : Act σ ExitCode := do
  let text := Text.join " " context.arguments
  if noNewline then write text else writeLine text
  return .success

def copyFiles (context : Context) : List String → Act σ ExitCode
  | [] => return .success
  | path :: rest => do
      match ← fileSource "cat" context path with
      | none => return .runtimeError
      | some source =>
          eachLine writeLine source
          copyFiles context rest

def runCat (context : Context) : Act σ ExitCode := do
  if context.arguments.isEmpty then
    eachLine writeLine context.input
    return .success
  else copyFiles context context.arguments

structure GrepOptions where
  pattern : String
  ignoreCase : Bool
  invert : Bool
  countOnly : Bool

def grepStep (options : GrepOptions) (node : Pattern.Node) (count : Nat)
    (line : String) :
    Act σ Nat := do
  if node.foundIn options.ignoreCase line = options.invert then return count
  if !options.countOnly then writeLine line
  return count + 1

def runGrep (context : Context) (options : GrepOptions) : Act σ ExitCode := do
  if options.pattern = "" then misused "grep: pattern is required"
  else
    match Pattern.read options.pattern with
    | .error (.defect cause position) =>
        misused ("grep: invalid pattern: " ++
          Pattern.report options.pattern.toList cause position)
    | .error .tooManyRepeats =>
        throw (.overflow "the repetition number is too large")
    | .error (.tooLong digits) => throw (.badValue (Number.tooLongMessage digits))
    | .ok node => do
        let count ← foldSource (grepStep options node) 0 context.input
        if options.countOnly then writeLine (toString count)
        return if count = 0 then .runtimeError else .success

/-- The first lines; a negative number leaves out that many at the end. -/
def headOf (count : Int) (lines : List String) : List String :=
  if count < 0 then lines.take (lines.length - count.natAbs)
    else lines.take count.toNat

/-- The last lines; the sign of the number does not matter. -/
def tailOf (count : Int) (lines : List String) : List String :=
  Journal.newest count.natAbs lines

def windowFiles (command : String) (select : List String → List String)
    (context : Context) (headings : Bool) :
    (index : Nat) → List String → Act σ ExitCode
  | _, [] => return .success
  | index, path :: rest => do
      match ← fileSource command context path with
      | none => return .runtimeError
      | some source =>
          if headings then
            if index ≠ 0 then writeLine ""
            writeLine ("==> " ++ path ++ " <==")
          writeLines (select (← readLines source))
          windowFiles command select context headings (index + 1) rest

/-- Writes some of the input lines, or of the lines of each file. -/
def runWindow (command : String) (select : List String → List String)
    (context : Context) : Act σ ExitCode := do
  if context.arguments.isEmpty then
    writeLines (select (← readLines context.input))
    return .success
  else
    windowFiles command select context (1 < context.arguments.length) 0
      context.arguments

/-- Where to go, how that is shown in errors, and whether it is printed. -/
structure Move where
  target : String
  shown : String
  printed : Bool

def moveOf (context : Context) : Option Move :=
  match context.arguments with
  | [] => some ⟨context.home, "~", false⟩
  | argument :: _ =>
      if argument = "-" then
        match context.previous with
        | none => none
        | some "" => none
        | some previous => some ⟨previous, previous, true⟩
      else some ⟨context.resolve argument, argument, false⟩

def move (owner : Owner σ) (target : Move) : Act σ ExitCode := do
  let files ← files
  if !files.contains target.target then
    failing ("cd: " ++ target.shown ++ ": No such file or directory")
  else if !files.isDirectory target.target then
    failing ("cd: " ++ target.shown ++ ": Not a directory")
  else
    changeDirectory owner target.target
    if target.printed then writeLine target.target
    return .success

def runCd (owner : Owner σ) (context : Context) : Act σ ExitCode := do
  if 1 < context.arguments.length then misused "cd: too many arguments"
  else if !context.canMove then failing "cd: cannot change directory in this context"
  else
    match moveOf context with
    | none => failing "cd: OLDPWD not set"
    | some target => move owner target

structure HistoryOptions where
  clear : Bool
  delete : Int
  number : Int
  reverse : Bool

/-- The entries with their numbers, of which the last are chosen. -/
def numbered (history : List String) (number : Int) : List (Nat × String) :=
  let start :=
    if 0 < number && number < history.length then history.length - number.toNat
      else 0
  ((List.range history.length).zip history).drop start

def historyLine (entry : Nat × String) : String :=
  Text.padLeft 5 (toString (entry.1 + 1)) ++ "  " ++ entry.2

def runHistory (owner : Owner σ) (context : Context) (options : HistoryOptions) :
    Act σ ExitCode := do
  if options.clear then
    if owner.clearHistory.isNone then
      failing "history: history clearing not supported"
    else
      clearHistory owner
      return .success
  else if 0 < options.delete then
    if owner.deleteEntry.isNone then
      failing "history: history deletion not supported"
    else if context.history.length < options.delete then
      failing ("history: position " ++ Json.intText options.delete ++
        " out of range")
    else
      let _ ← deleteEntry owner options.delete
      return .success
  else
    let entries := numbered context.history options.number
    writeLines ((if options.reverse then entries.reverse else entries).map
      historyLine)
    return .success

/-- A registry without commands counts as none where help is tied to another. -/
def helpRegistry (tied : Bool) : Act σ (Option Registry) := do
  let shared := (← session).registry
  match ← visibleRegistry with
  | none => return if tied then some shared else none
  | some registry =>
      if registry.isEmpty then return if tied then some shared else none
      else return some registry

def runHelp (tied : Bool) (context : Context) : Act σ ExitCode := do
  match ← helpRegistry tied with
  | none => failing "help: registry not configured"
  | some registry =>
      match context.arguments with
      | [] =>
          writeLines (Text.lines registry.help)
          return .success
      | name :: _ =>
          match registry.lookup name with
          | none => misused ("help: unknown command: " ++ name)
          | some schema =>
              writeLines (Text.lines schema.help)
              return .success

structure LogOptions where
  count : Int
  level : String
  subsystems : List String
  clear : Bool

def runLog (options : LogOptions) : Act σ ExitCode := do
  if (← session).machine.journal.isNone then
    failing "log: log buffer is not available"
  else if options.clear then
    onMachine Machine.clearJournal
    return .success
  else
    let entries ← lift ((← session).machine.journalEntries
      (some options.level) none 0)
    let chosen :=
      if options.subsystems.isEmpty then entries
      else entries.filter (options.subsystems.contains ·.note.subsystem)
    let last := if 0 < options.count then Journal.newest options.count.toNat chosen
      else chosen
    writeLines (last.map Journal.Entry.summary)
    return .success

def runPwd (context : Context) : Act σ ExitCode := do
  writeLine context.directory
  return .success

def intAt (command : Instance) (slot : String) : Int :=
  (command.value slot).int?.getD 0

def run (owner : Owner σ) (context : Context) (command : Instance) :
    Builtin → Act σ ExitCode
  | .echo => runEcho context (command.value "no_newline").isTrue
  | .cat => runCat context
  | .grep => runGrep context
      { pattern := (command.value "pattern").text?.getD ""
        ignoreCase := (command.value "ignorecase").isTrue
        invert := (command.value "invert").isTrue
        countOnly := (command.value "count").isTrue }
  | .head => runWindow "head" (headOf (intAt command "lines")) context
  | .tail => runWindow "tail" (tailOf (intAt command "lines")) context
  | .pwd => runPwd context
  | .cd => runCd owner context
  | .history => runHistory owner context
      { clear := (command.value "clear").isTrue
        delete := intAt command "delete"
        number := intAt command "number"
        reverse := (command.value "reverse").isTrue }
  | .help tied => runHelp tied context
  | .log => runLog
      { count := intAt command "lines"
        level := (command.value "level").member?.getD Journal.Level.debug.name
        subsystems := (command.value "subsystem").texts
        clear := (command.value "clear").isTrue }

end PipeShell.Builtin
