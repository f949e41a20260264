import PipeShell.Fault

namespace PipeShell

inductive Builtin where
  | echo
  | cat
  | grep
  | head
  | tail
  | pwd
  | cd
  | history
  | help (tied : Bool)
  | log
  deriving DecidableEq, Repr

inductive Action where
  | line (text : String)
  | write (text : String)
  | errorLine (text : String)
  | arguments
  | copy (mark : String)
  /-- Copies lines from the start of the input, at most as many as given. -/
  | take (most : Int)
  | count
  | directories
  | changeDirectory (path : String)
  | resolve (path : String)
  | history
  | clearHistory
  | deleteEntry (position : Int)
  | unregister (name : String)
  | clear
  | cancel
  | check
  | interrupt
  /-- Writes an error line, cancelled or not, and ends with a runtime error. -/
  | failWith (text : String)
  | finish (value : Json)
  | raise (fault : Fault)

inductive Program where
  | builtin (command : Builtin)
  | actions (steps : List Action)

inductive Hook where
  | texts (candidates : List String)
  | raises (fault : Fault)
  | echo
  /-- Offers the names in the registry that the command is tied to, as its first
  argument. -/
  | commandNames

def Hook.none : Hook := .texts []

inductive Factory where
  | itself
  | derived
  | raises (fault : Fault)

def Factory.isItself : Factory → Bool
  | .itself => true
  | _ => false

end PipeShell
