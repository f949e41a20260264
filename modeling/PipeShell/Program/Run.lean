import PipeShell.Binding
import PipeShell.Program.Builtin

namespace PipeShell

/-- What a command hands back: an exit code, or a value that may stand for one. -/
inductive Status where
  | code (exitCode : ExitCode)
  | value (data : Json)

def Status.exitCode : Status → Except Fault ExitCode
  | .code exitCode => .ok exitCode
  | .value data =>
      match ExitCode.ofJson? data with
      | some exitCode => .ok exitCode
      | none => .error (.badValue (ExitCode.invalidMessage data))

namespace Action

open Act

variable {σ : Type}

def yesNo (answer : Bool) : String :=
  if answer then "yes" else "no"

def numberedArguments (arguments : List String) : List String :=
  ((List.range arguments.length).zip arguments).map fun (index, argument) =>
    toString index ++ "=" ++ argument

def perform (owner : Owner σ) (context : Context) : Action → Act σ (Option Status)
  | .line text => do
      writeLine text
      return none
  | .write text => do
      Act.write text
      return none
  | .errorLine text => do
      Act.errorLine text
      return none
  | .arguments => do
      writeLines (numberedArguments context.arguments)
      return none
  | .copy mark => do
      eachLine (fun line => writeLine (mark ++ line)) context.input
      return none
  | .take most => do
      eachOfFirst writeLine most.toNat (← start context.input)
      return none
  | .count => do
      writeLine (toString (← readLines context.input).length)
      return none
  | .directories => do
      writeLines [context.directory, context.home, context.previous.getD "none"]
      return none
  | .changeDirectory path => do
      if !context.canMove then throw nothingToCall
      Act.changeDirectory owner path
      return none
  | .resolve path => do
      writeLine (context.resolve path)
      return none
  | .history => do
      writeLines context.history
      return none
  | .clearHistory => do
      Act.clearHistory owner
      return none
  | .deleteEntry position => do
      writeLine (yesNo (← Act.deleteEntry owner position))
      return none
  | .unregister name => do
      writeLine (yesNo (← Act.unregister name))
      return none
  | .clear => do
      clearOutput
      return none
  | .cancel => do
      Act.cancel
      return none
  | .check => do
      Act.check
      return none
  | .interrupt => do
      Act.cancel
      onMachine fun machine => machine.print "^C\n"
      return none
  | .failWith text => do
      reportLine text
      return some (.code .runtimeError)
  | .finish value => return some (.value value)
  | .raise fault => throw fault

/-- Performs actions up to the first that ends the command. -/
def performAll (owner : Owner σ) (context : Context) : List Action → Act σ Status
  | [] => return .code .success
  | action :: rest => do
      match ← action.perform owner context with
      | some status => return status
      | none => performAll owner context rest

end Action

/-- Runs the program of a command, unless the value of an option hides it. -/
def Instance.run {σ : Type} (owner : Owner σ) (context : Context)
    (command : Instance) :
    Act σ Status :=
  match Table.get? Instance.programSlot command.values, command.program with
  | some value, _ => throw (.notCallable value.typeName)
  | none, .builtin builtin => do
      return .code (← builtin.run owner context command)
  | none, .actions steps => Action.performAll owner context steps

end PipeShell
