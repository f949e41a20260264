import PipeShell.Json.Basic

namespace PipeShell

inductive ExitCode where
  | success
  | runtimeError
  | usageError
  deriving DecidableEq, Repr, Inhabited

namespace ExitCode

def name : ExitCode → String
  | .success => "SUCCESS"
  | .runtimeError => "RUNTIME_ERROR"
  | .usageError => "USAGE_ERROR"

def number : ExitCode → Nat
  | .success => 0
  | .runtimeError => 1
  | .usageError => 2

def isSuccess (code : ExitCode) : Bool :=
  code = .success

def ofNumber? : Int → Option ExitCode
  | 0 => some .success
  | 1 => some .runtimeError
  | 2 => some .usageError
  | _ => none

def ofJson? (value : Json) : Option ExitCode :=
  value.wholeNumber?.bind ofNumber?

def invalidMessage (value : Json) : String :=
  value.literal ++ " is not a valid ExitCode"

end ExitCode

end PipeShell
