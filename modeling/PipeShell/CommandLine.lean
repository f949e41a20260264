import PipeShell.Config.Loader
import PipeShell.Repl

namespace PipeShell

namespace CommandLine

structure Arguments where
  config : Option String
  script : Option String
  help : Bool
  deriving DecidableEq, Repr

/-- Reads the arguments; the first that is not recognized is an error. -/
def parse (arguments : Arguments) : List String → Except String Arguments
  | [] => .ok arguments
  | "--config" :: file :: rest => parse { arguments with config := some file } rest
  | "--script" :: file :: rest => parse { arguments with script := some file } rest
  | word :: rest =>
      if word = "-h" || word = "--help" then
        parse { arguments with help := true } rest
      else .error ("unrecognized argument: " ++ word)

def usage : String :=
  "uniterm - Interactive entry point\n\n" ++
  "Runs a terminal against the process's stdin and stdout.\n\n" ++
  "Usage:\n" ++
  "    python -m uniterm [--config FILE] [--script FILE]\n\n" ++
  "Ctrl+C while a command runs cancels that command; Ctrl+C at the\n" ++
  "prompt discards the current line; Ctrl+D or `exit` leaves."

def complain (machine : Machine) (message : String) : Machine :=
  machine.printError ("uniterm: " ++ message ++ "\n")

def settings (machine : Machine) : Option String → Except Fault Config
  | none => .ok Config.default
  | some path => (Config.Loader.loadFile machine.files path).map (·.config)

def start (machine : Machine) (config : Option String) :
    Except (Fault × Machine) Terminal :=
  match settings machine config with
  | .error fault => .error (fault, machine)
  | .ok config => Terminal.new machine config .console .errorConsole .empty none

def readScript (files : FileTree) (names : List String) : Except Fault String :=
  match Text.Utf8.decode (files.content names) with
  | .error fault => .error (.undecodable fault)
  | .ok text => .ok (String.ofList (Channel.unifyNewlines text))

/-- Runs a script file. One that cannot be opened is reported. -/
def runScript (terminal : Terminal) (path : String) :
    Except Fault ExitCode × Machine :=
  let machine := terminal.machine
  if FileTree.hasZero path then (.error .zeroInPath, machine)
  else
    match machine.files.openForReading path with
    | .error fault =>
        (.ok .runtimeError, complain machine
          ("cannot read " ++ path ++ ": " ++ fault.message))
    | .ok names =>
        match readScript machine.files names with
        | .error fault => (.error fault, machine)
        | .ok script =>
            let (result, terminal) := terminal.runScript false script
            (result, terminal.machine)

inductive Plan where
  | finished (result : Except Fault ExitCode) (machine : Machine)
  | session (terminal : Terminal)

def Plan.failing : Fault → Machine → Plan
  | .failure cause, machine =>
      if cause.kind = .config then .finished (.ok .runtimeError)
        (complain machine cause.message)
      else .finished (.error (.failure cause)) machine
  | fault, machine => .finished (.error fault) machine

def Plan.ofTerminal (terminal : Terminal) : Option String → Plan
  | none => .session terminal
  | some path =>
      if path = "" then .session terminal
      else
        let (result, machine) := runScript terminal path
        .finished result machine

/-- Does what the arguments ask for, up to a session at the prompt. -/
def plan (machine : Machine) (arguments : List String) : Plan :=
  match parse ⟨none, none, false⟩ arguments with
  | .error message => .finished (.ok .usageError) (complain machine message)
  | .ok parsed =>
      if parsed.help then .finished (.ok .success) (machine.print (usage ++ "\n"))
      else
        match start machine parsed.config with
        | .error (fault, machine) => .failing fault machine
        | .ok terminal => .ofTerminal terminal parsed.script

def interact (terminal : Terminal) (keys : List Repl.Keys) :
    Except Fault ExitCode × Machine :=
  let (code, terminal) := Repl.run terminal keys
  (.ok code, terminal.machine)

def run (machine : Machine) (arguments : List String) (keys : List Repl.Keys) :
    Except Fault ExitCode × Machine :=
  match plan machine arguments with
  | .finished result machine => (result, machine)
  | .session terminal => interact terminal keys

end CommandLine

end PipeShell
