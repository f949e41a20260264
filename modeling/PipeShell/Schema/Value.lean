import PipeShell.Json.Basic

namespace PipeShell

structure Enumeration where
  name : String
  members : List String
  deriving DecidableEq, Repr

inductive Value where
  | null
  | bool (value : Bool)
  | int (value : Int)
  | float (value : Number.Binary64)
  | text (value : String)
  | member (name : String)
  | list (items : List Value)
  deriving Inhabited, Repr

namespace Value

def typeName : Value → String
  | .null => "NoneType"
  | .bool _ => "bool"
  | .int _ => "int"
  | .float _ => "float"
  | .text _ => "str"
  | .member _ => "Enum"
  | .list _ => "list"

def isTrue : Value → Bool
  | .bool b => b
  | _ => false

def int? : Value → Option Int
  | .int n => some n
  | _ => none

def text? : Value → Option String
  | .text s => some s
  | _ => none

def member? : Value → Option String
  | .member name => some name
  | _ => none

def texts : Value → List String
  | .list items => items.filterMap text?
  | _ => []

mutual

def literal : Value → String
  | .null => "None"
  | .bool b => if b then "True" else "False"
  | .int n => Json.intText n
  | .float x => x.textWith Json.specialNames
  | .text s => Text.quoted s
  | .member name => name
  | .list items => "[" ++ Text.join ", " (literals items) ++ "]"

def literals : List Value → List String
  | [] => []
  | item :: rest => literal item :: literals rest

end

end Value

end PipeShell
