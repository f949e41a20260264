import PipeShell.Program.Run

/-! Execution of a pipeline, stage by stage. The output of a stage becomes the input
of the next, unless it is redirected to a file. A stage that does not succeed is the
last, and every file that was opened is closed in the end, the last one first. -/

namespace PipeShell.Execution

open Act
open Channel (Source Writer)

variable {σ : Type}

abbrev Body (σ : Type) := BoundCommand → Context → Act σ Status

def subsystem : String := "executor"

def resolve (home path : String) : Act σ String := do
  return Path.resolve path (← session).directory home

/-- The input of a stage, unless the file that it is to come from is missing. Only
the first stage can take its input from a file. -/
def stageInput (home : String) (bound : BoundCommand) (index : Nat)
    (current : Source) :
    Act σ (Except String Source) := do
  match bound.redirections.stdin with
  | none => return .ok current
  | some path =>
      if index ≠ 0 then
        note (.warning subsystem "Ignoring stdin redirection on a piped command"
          [("command", .text bound.schema.name), ("path", .text path)])
        return .ok current
      else
        let resolved ← resolve home path
        if (← files).isFile resolved then return .ok (.file resolved)
        else return .error resolved

inductive Outlet where
  | own
  | pipe
  | file (handle : Nat)
  deriving DecidableEq, Repr

def Outlet.close (outlet : Outlet) (session : Session σ) : Session σ :=
  match outlet with
  | .file handle => { session with machine := session.machine.closeOutput handle }
  | _ => session

/-- A file for the output of a stage; the failure if it cannot be opened. -/
def openFile (home : String) (output : Output) : Act σ (Except Failure Outlet) := do
  let resolved ← resolve home output.path
  let session ← session
  match session.machine.openOutput resolved output.append with
  | .ok (machine, handle) =>
      set { session with machine }
      return .ok (.file handle)
  | .error (.failure cause) => return .error cause
  | .error fault => throw fault

def stageOutput (home : String) (bound : BoundCommand) (isLast : Bool) :
    Act σ (Except Failure Outlet) := do
  match bound.redirections.stdout with
  | some output => openFile home output
  | none => return .ok (if isLast then .own else .pipe)

def contextFor (owner : Owner σ) (home : String) (bound : BoundCommand)
    (input : Source) :
    Act σ Context := do
  let session ← session
  pure
    { input
      arguments := bound.arguments
      directory := session.directory
      home
      previous := session.previous
      history := owner.history session.owner
      canMove := true }

/-- A command that breaks off fails its stage. Only a cancellation goes further. -/
def recover (bound : BoundCommand) : Fault → Act σ ExitCode
  | .cancelled message => throw (.cancelled message)
  | .endless => throw .endless
  | .failure cause => do
      note (.warning subsystem ("Command failed: " ++ bound.schema.name)
        [("error", .text cause.message), ("exit_code", .text cause.exitCode.name)])
      errorLine (bound.schema.name ++ ": " ++ cause.message)
      return cause.exitCode
  | fault => do
      note (.fault subsystem ("Command crashed: " ++ bound.schema.name) []
        (some fault))
      errorLine (bound.schema.name ++ ": " ++ fault.message)
      return .runtimeError

def runCommand (owner : Owner σ) (body : Body σ) (home : String)
    (bound : BoundCommand) (input : Source) : Act σ ExitCode := do
  let context ← contextFor owner home bound input
  tryCatch (do lift (← body bound context).exitCode) (recover bound)

def handedOver : Writer → Source
  | .lines buffer => .lines buffer.flush.lines.toList
  | _ => .empty

/-- Runs an action with the output of its stage. The source is the input of the next
stage. -/
def onStage {α : Type} (outlet : Outlet) (current : Source) (act : Act σ α) :
    Act σ (α × Source) :=
  match outlet with
  | .own => do
      return (← act, current)
  | .pipe => do
      let (value, written) ← withOutput (.lines .empty) act
      return (value, handedOver written)
  | .file handle => do
      let (value, _) ← withOutput (.file handle) act
      return (value, current)

def runningNote (index : Nat) (bound : BoundCommand) : Journal.Note :=
  .debug subsystem ("Running stage " ++ toString index ++ ": " ++ bound.schema.name)
    [("arguments", .int bound.arguments.length)]

def stoppedNote (index : Nat) (bound : BoundCommand) (code : ExitCode) :
    Journal.Note :=
  .debug subsystem ("Pipeline stopped at stage " ++ toString index)
    [("command", .text bound.schema.name), ("exit_code", .text code.name)]

def proceed (index : Nat) (bound : BoundCommand) (rest : Source → Act σ ExitCode) :
    ExitCode × Source → Act σ ExitCode
  | (code, next) => do
      if code ≠ .success then
        note (stoppedNote index bound code)
        return code
      else rest next

def runStages (owner : Owner σ) (body : Body σ) (home : String) :
    (index : Nat) → (current : Source) → BoundPipeline → Act σ ExitCode
  | _, _, [] => return .success
  | index, current, bound :: rest => do
      check
      match ← stageInput home bound index current with
      | .error missing =>
          errorLine ("File not found: " ++ missing)
          return .runtimeError
      | .ok input =>
          match ← stageOutput home bound rest.isEmpty with
          | .error cause =>
              errorLine (bound.schema.name ++ ": " ++ cause.message)
              return cause.exitCode
          | .ok outlet =>
              afterwards outlet.close do
                note (runningNote index bound)
                let ended ← onStage outlet current
                  (runCommand owner body home bound input)
                proceed index bound (runStages owner body home (index + 1) · rest)
                  ended

def execute (owner : Owner σ) (body : Body σ) (home : String) (input : Source)
    (pipeline : BoundPipeline) : Act σ ExitCode :=
  runStages owner body home 0 input pipeline

def commands (owner : Owner σ) : Body σ :=
  fun bound context => bound.command.run owner context

def tokenizedNote (tokens : List Token) : Journal.Note :=
  .debug "tokenizer" "Tokenized input" [("tokens", .int tokens.length)]

def parsedNote (pipeline : Pipeline) : Journal.Note :=
  .debug "parser" "Parsed pipeline"
    [("commands", .text (Text.join " | " (pipeline.map (·.name))))]

def refuse {α : Type} (error : ParseError) : Act σ α :=
  throw (.failure error.toFailure)

/-- The pipeline of a line; an empty line is not even noted. -/
def parse (text : String) : Act σ (Option Pipeline) := do
  if text = "" then return none
  match Token.tokenize text with
  | .error error => refuse error
  | .ok tokens =>
      note (tokenizedNote tokens)
      match Pipeline.parseTokens tokens with
      | .error error => refuse error
      | .ok none => return none
      | .ok (some pipeline) =>
          note (parsedNote pipeline)
          return some pipeline

def interpretWith (owner : Owner σ) (body : Body σ) (parsers : Parsers)
    (home : String) (input : Source) (text : String) : Act σ ExitCode := do
  match ← parse text with
  | none => return .success
  | some pipeline =>
      let (notes, bound) := (← session).registry.bind parsers pipeline
      onMachine fun machine => machine.noteAll notes
      execute owner body home input (← lift bound)

def interpret (owner : Owner σ) (parsers : Parsers) (home : String) (input : Source)
    (text : String) : Act σ ExitCode :=
  interpretWith owner (commands owner) parsers home input text

end PipeShell.Execution
