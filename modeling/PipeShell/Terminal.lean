import PipeShell.Catalog
import PipeShell.Completion
import PipeShell.Execution

namespace PipeShell

namespace Terminal

open Channel (Source Writer)

/-- What a terminal remembers, and what its commands can change. -/
structure Memory where
  directory : String
  previous : Option String
  history : List String

end Terminal

structure Terminal where
  config : Config
  machine : Machine
  home : String
  memory : Terminal.Memory
  registry : Registry
  parsers : Parsers
  out : Channel.Writer
  err : Channel.Writer

namespace Terminal

open Channel (Source Writer)

def subsystem : String := "terminal"

def Memory.enter (memory : Memory) (path : String) : Memory :=
  if path = memory.directory then memory
  else { memory with directory := path, previous := some memory.directory }

def notDirectory (path resolved : String) : Fault :=
  .failure (.runtime ("not a directory: " ++ path) (some resolved) [])

def changeDirectory (terminal : Terminal) (path : String) : Except Fault Terminal :=
  let resolved := Path.resolve path terminal.memory.directory terminal.home
  if !terminal.machine.files.isDirectory resolved then
    .error (notDirectory path resolved)
  else if resolved = terminal.memory.directory then .ok terminal
  else
    .ok
      { terminal with
        memory := terminal.memory.enter resolved
        machine := terminal.machine.note
          (.debug subsystem "Working directory changed" [("cwd", .text resolved)]) }

def prompt (terminal : Terminal) : String :=
  Path.display terminal.memory.directory terminal.home ++ "$ "

/-- The number of lines by which a history of a length exceeds its limit. A limit
that is no whole number can be kept but not enforced. -/
def overflow (length : Nat) : Json → Except Fault Nat
  | .int n => .ok (length - n).toNat
  | .bool b => .ok (length - if b then 1 else 0)
  | .real x =>
      if x.below length then .error (.mistyped "a whole number is expected")
        else .ok 0
  | _ => .error (.mistyped "a number is expected")

/-- Adds a line unless it is blank or repeats the last one. -/
def Memory.addLine (memory : Memory) (ignoreDuplicates : Bool) (line : String) :
    Memory :=
  if Text.allBlank line then memory
  else if ignoreDuplicates && memory.history.getLast? = some line then memory
  else { memory with history := memory.history ++ [line] }

def Memory.trim (memory : Memory) (limit : Json) : Except Fault Memory :=
  (overflow memory.history.length limit).map fun count =>
    { memory with history := memory.history.drop count }

def addHistory (terminal : Terminal) (line : String) :
    Except Fault Unit × Terminal :=
  let added :=
    terminal.memory.addLine (terminal.config.get .ignoreDuplicates).truthy line
  if added.history.length = terminal.memory.history.length then (.ok (), terminal)
  else
    match added.trim (terminal.config.get .maxHistory) with
    | .ok memory => (.ok (), { terminal with memory })
    | .error fault => (.error fault, { terminal with memory := added })

def Memory.clearHistory (memory : Memory) : Memory :=
  { memory with history := [] }

/-- Deletes the entry at a position that counts from one. -/
def Memory.deleteEntry (memory : Memory) (position : Int) : Bool × Memory :=
  if 1 ≤ position && position ≤ memory.history.length then
    (true, { memory with history := memory.history.eraseIdx (position - 1).toNat })
  else (false, memory)

def clearHistory (terminal : Terminal) : Terminal :=
  { terminal with memory := terminal.memory.clearHistory }

def deleteEntry (terminal : Terminal) (position : Int) : Bool × Terminal :=
  let (deleted, memory) := terminal.memory.deleteEntry position
  (deleted, { terminal with memory })

def disabledNames : Json → Except Fault (List String)
  | .list items => items.mapM fun
      | .text name => .ok name
      | _ => .error (.absentMember "a name is expected")
  | .text chars => .ok (chars.toList.map fun c => String.ofList [c])
  | .object fields => .ok (Table.keys fields)
  | _ => .error (.mistyped "a list is expected")

def registered (terminal : Terminal) (outcome : Registry.Outcome) : Terminal :=
  { terminal with
    registry := outcome.registry
    machine := terminal.machine.noteAll outcome.notes }

def registerBuiltins (terminal : Terminal) : Except Fault (Nat × Terminal) := do
  let outcome := terminal.registry.registerBuiltins
    (← disabledNames (terminal.config.get .disabled))
  match outcome.result with
  | .ok count => return (count, terminal.registered outcome)
  | .error failure => throw (.failure failure)

def register (terminal : Terminal) (registrant : Registrant) :
    Except Failure (CommandSchema × Terminal) :=
  match terminal.registry.register registrant with
  | .error failure => .error failure
  | .ok (schema, registry, notes) =>
      .ok (schema, { terminal with
        registry, machine := terminal.machine.noteAll notes })

def unregister (terminal : Terminal) (name : String) : Bool × Terminal :=
  let (removed, registry) := terminal.registry.unregister name
  (removed, { terminal with registry })

def setParser (terminal : Terminal) (name : String) (parser : ValueParser) :
    Terminal :=
  { terminal with parsers := Table.set name parser terminal.parsers }

def journalSettings (config : Config) : Except Fault Machine.JournalSettings := do
  let level ← Journal.Level.ofName (config.get .logLevel).display
  let file ←
    match config.get .logFile with
    | .text path => .ok (some path)
    | other => if other.truthy then .error Config.notPath else .ok none
  return {
    level := level.number
    file
    colours := (config.get .logColours).truthy
    console := (config.get .logConsole).truthy
    capacity := (config.get .logCapacity).wholeNumber?.getD 1 }

def startJournal (machine : Machine) (config : Config) :
    Machine × Except Fault Unit :=
  if machine.journal.isSome then (machine, .ok ())
  else
    match journalSettings config with
    | .error fault => (machine, .error fault)
    | .ok settings => machine.startJournal settings

def assemble (machine : Machine) (config : Config) (out err : Writer)
    (registry : Registry) (builtins : Option Bool) : Except Fault Terminal := do
  let home ← config.home machine.userHome
  let directory ← config.startDirectory machine.userHome
  let bare : Terminal :=
    { config, machine, home, memory := ⟨directory, none, []⟩, registry,
      parsers := [], out, err }
  let terminal ←
    if builtins.getD (config.get .registerBuiltins).truthy then
      (bare.registerBuiltins).map (·.2)
    else .ok bare
  return { terminal with
    machine := terminal.machine.note (.info subsystem "Terminal initialized"
      [("commands", .int terminal.registry.size), ("cwd", .text directory)]) }

/-- A terminal with valid settings, and with commands that are registered before the
shell's own. A fault leaves the machine as it has become. -/
def new (machine : Machine) (config : Config) (out err : Writer)
    (registry : Registry) (builtins : Option Bool) :
    Except (Fault × Machine) Terminal :=
  match config.defect? with
  | some defect => .error (.failure defect.toFailure, machine)
  | none =>
      match startJournal machine config with
      | (started, .error fault) => .error (fault, started)
      | (started, .ok ()) =>
          (assemble started config out err registry builtins).mapError (·, started)

/-- What the terminal offers to the commands that it runs. -/
def owner : Owner Memory where
  directoryChanged path memory := memory.enter path
  history memory := memory.history
  clearHistory := some Memory.clearHistory
  deleteEntry := some fun position memory => memory.deleteEntry position

/-- Failures that end a line are reported; anything else goes on to the host. -/
def reportFailure {σ : Type} : Fault → Act σ ExitCode
  | .failure cause => do
      match cause.kind with
      | .parse =>
          Act.note (.debug subsystem "Parse error"
            [("error", .text cause.message), ("position", cause.subject)])
          Act.reportLine ("parse error: " ++ cause.message)
          return cause.exitCode
      | .bind =>
          Act.note (.debug subsystem "Bind error" [("command", cause.subject)])
          Act.reportLine cause.message
          return cause.exitCode
      | .runtime =>
          Act.note (.warning subsystem "Runtime error"
            [("error", .text cause.message)])
          Act.reportLine ("runtime error: " ++ cause.message)
          return cause.exitCode
      | _ => throw (.failure cause)
  | fault => throw fault

structure Streams where
  input : Source
  out : Writer
  err : Writer
  cancelled : Bool

structure LineResult where
  result : Except Fault ExitCode
  terminal : Terminal
  out : Writer
  err : Writer

def sessionFor (terminal : Terminal) (streams : Streams) : Session Memory :=
  { machine := terminal.machine
    cancelled := streams.cancelled
    out := streams.out
    err := streams.err
    directory := terminal.memory.directory
    previous := terminal.memory.previous
    registry := terminal.registry
    view := .shared
    owner := terminal.memory }

def absorb (terminal : Terminal) (session : Session Memory) : Terminal :=
  { terminal with
    machine := session.machine
    registry := session.registry
    memory := session.owner }

/-- Runs one line with the given streams. A blank line does nothing. -/
def runOn (terminal : Terminal) (streams : Streams) (text : String) : LineResult :=
  if Text.allBlank text then ⟨.ok .success, terminal, streams.out, streams.err⟩
  else
    match terminal.addHistory text with
    | (.error fault, terminal) => ⟨.error fault, terminal, streams.out, streams.err⟩
    | (.ok (), terminal) =>
        let act := tryCatch
          (Execution.interpret owner terminal.parsers terminal.home streams.input
            text) reportFailure
        let (result, session) := act.run.run (terminal.sessionFor streams)
        ⟨result, terminal.absorb session, session.out, session.err⟩

/-- Runs the lines of a script that are neither blank nor comments, up to the first
that does not succeed. -/
def runLinesOn (terminal : Terminal) (streams : Streams) : List String → LineResult
  | [] => ⟨.ok .success, terminal, streams.out, streams.err⟩
  | line :: rest =>
      let text := Text.strip line
      if text = "" || Text.startsWith text "#" then terminal.runLinesOn streams rest
      else
        match terminal.runOn streams text with
        | ⟨.ok .success, terminal, out, err⟩ =>
            terminal.runLinesOn { streams with out, err } rest
        | other => other

def ownStreams (terminal : Terminal) (input : Source) (cancelled : Bool) : Streams :=
  ⟨input, terminal.out, terminal.err, cancelled⟩

def LineResult.settle (result : LineResult) : Except Fault ExitCode × Terminal :=
  (result.result, { result.terminal with out := result.out, err := result.err })

def runLine (terminal : Terminal) (input : Source) (cancelled : Bool)
    (text : String) :
    Except Fault ExitCode × Terminal :=
  (terminal.runOn (terminal.ownStreams input cancelled) text).settle

def runScript (terminal : Terminal) (cancelled : Bool) (script : String) :
    Except Fault ExitCode × Terminal :=
  (terminal.runLinesOn (terminal.ownStreams .empty cancelled)
    (Text.lines script)).settle

/-- Takes the texts that the streams of the terminal have collected. -/
def takeCollected (terminal : Terminal) : Terminal × String × String :=
  ({ terminal with out := .text "", err := .text "" }, terminal.out.collected,
    terminal.err.collected)

def completionScope (terminal : Terminal) : Completion.Scope :=
  { registry := terminal.registry
    files := terminal.machine.files
    directory := terminal.memory.directory
    home := terminal.home
    showHidden := terminal.config.get .showHidden
    maxCandidates := terminal.config.get .maxCandidates }

def complete (terminal : Terminal) (line : String) :
    Except Fault Completion × Terminal :=
  let (notes, result) := Completion.complete terminal.completionScope line
  (result, { terminal with machine := terminal.machine.noteAll notes })

end Terminal

end PipeShell
