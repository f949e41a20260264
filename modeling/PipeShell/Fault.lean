import PipeShell.ExitCode
import PipeShell.FileTree

namespace PipeShell

namespace Failure

inductive Kind where
  | general
  | parse
  | bind
  | runtime
  | definition
  | config
  deriving DecidableEq, Repr

def Kind.label : Kind → String
  | .general => "TerminalException"
  | .parse => "ParseError"
  | .bind => "BindError"
  | .runtime => "TerminalRuntimeError"
  | .definition => "CommandDefinitionError"
  | .config => "ConfigValidationError"

end Failure

structure Failure where
  kind : Failure.Kind
  message : String
  exitCode : ExitCode
  context : Table Json
  /-- What the failure is about: a position, a command, a path, a type or a key. -/
  subject : Json

namespace Failure

def general (message : String) (exitCode : ExitCode) (context : Table Json) :
    Failure :=
  ⟨.general, message, exitCode, context, .null⟩

def parse (message : String) (position : Option Int) (context : Table Json) :
    Failure :=
  match position with
  | none => ⟨.parse, message, .usageError, context, .null⟩
  | some n =>
      ⟨.parse, message, .usageError, Table.set "position" (.int n) context, .int n⟩

def withDetail (key : String) (detail : Option String) (context : Table Json) :
    Table Json :=
  match detail with
  | none => context
  | some text => if text = "" then context else Table.set key (.text text) context

def subjectOf (detail : Option String) : Json :=
  match detail with
  | none => .null
  | some text => .text text

def bind (message : String) (command : Option String) (context : Table Json) :
    Failure :=
  ⟨.bind, message, .usageError, withDetail "command" command context,
    subjectOf command⟩

def runtime (message : String) (path : Option String) (context : Table Json) :
    Failure :=
  ⟨.runtime, message, .runtimeError, withDetail "path" path context, subjectOf path⟩

def definition (message : String) (typeName : Option String) : Failure :=
  match typeName with
  | none => ⟨.definition, message, .runtimeError, [], .null⟩
  | some name =>
      ⟨.definition, message, .runtimeError, [("type", .text name)], .text name⟩

def config (message : String) (key : Option String) : Failure :=
  ⟨.config, message, .runtimeError, withDetail "key" key [], subjectOf key⟩

/-- The failure with its message in quotes and the name of its exit code. -/
def describe (failure : Failure) : String :=
  failure.kind.label ++ "(message=" ++ Text.quoted failure.message ++
    ", exit_code=" ++
    failure.exitCode.name ++ ")"

end Failure

inductive Fault where
  | failure (cause : Failure)
  | cancelled (message : String)
  | badValue (message : String)
  | undecodable (fault : Text.Utf8.Fault)
  | unsupported (message : String)
  | crash (message : String)
  | storage (fault : FileTree.Fault)
  /-- A value of the wrong type where the operation has no message of its own. -/
  | mistyped (message : String)
  | overflow (message : String)
  | absentMember (message : String)
  | endless

namespace Fault

def cancellationMessage : String := "operation cancelled"

def cancellation : Fault := .cancelled cancellationMessage

/-- A value that was to be called, by the name of its type. -/
def notCallable (typeName : String) : Fault :=
  .mistyped ("'" ++ typeName ++ "' object is not callable")

def zeroInPath : Fault := .badValue "embedded null byte"

def message : Fault → String
  | .failure cause => cause.message
  | .cancelled message => message
  | .badValue message => message
  | .undecodable fault => fault.message
  | .unsupported message => message
  | .crash message => message
  | .storage fault => fault.message
  | .mistyped message => message
  | .overflow message => message
  | .absentMember message => message
  | .endless => "input grows as fast as it is read"

def label : Fault → String
  | .failure cause => cause.kind.label
  | .cancelled _ => "CommandCancelledError"
  | .badValue _ => "ValueError"
  | .undecodable _ => "UnicodeDecodeError"
  | .unsupported _ => "NotImplementedError"
  | .crash _ => "RuntimeError"
  | .storage .missing => "FileNotFoundError"
  | .storage .notDirectory => "NotADirectoryError"
  | .storage .isDirectory => "IsADirectoryError"
  | .storage .nameTooLong => "OSError"
  | .storage .alreadyExists => "FileExistsError"
  | .mistyped _ => "TypeError"
  | .overflow _ => "OverflowError"
  | .absentMember _ => "AttributeError"
  | .endless => "EndlessInput"

/-- The last line of a report about the fault: its label, and its message if there is
one. -/
def report (fault : Fault) : String :=
  if fault.message = "" then fault.label else fault.label ++ ": " ++ fault.message

end Fault

end PipeShell
