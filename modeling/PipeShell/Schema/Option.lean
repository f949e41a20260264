import PipeShell.Fault
import PipeShell.Schema.Value
import PipeShell.Text.Case

namespace PipeShell

namespace Schema

inductive Kind where
  | string
  | int
  | float
  | bool
  | enum
  | structured
  deriving DecidableEq, Repr

def Kind.all : List Kind := [.string, .int, .float, .bool, .enum, .structured]

def Kind.name : Kind → String
  | .string => "string"
  | .int => "int"
  | .float => "float"
  | .bool => "bool"
  | .enum => "enum"
  | .structured => "structured"

def Kind.capitalName : Kind → String
  | .string => "STRING"
  | .int => "INT"
  | .float => "FLOAT"
  | .bool => "BOOL"
  | .enum => "ENUM"
  | .structured => "STRUCTURED"

def Kind.ofName? (name : String) : Option Kind :=
  Kind.all.find? (·.name = name)

end Schema

structure OptionDeclaration where
  long : String
  short : Option String := none
  kind : Option Schema.Kind := some .string
  required : Bool := false
  description : String := ""
  default : Value := .null
  isList : Bool := false
  enumeration : Option Enumeration := none
  parser : Option String := none
  slot : Option String := none

structure OptionSchema where
  long : String
  short : Option Char := none
  required : Bool := false
  description : String := ""
  kind : Schema.Kind
  isList : Bool := false
  enumeration : Option Enumeration := none
  parser : Option String := none
  slot : String
  default : Value

inductive DefinitionError where
  | notCommand (shown : String)
  | abstractCommand (typeName : String)
  | noName
  | badName (name : String)
  | notOption (command : String) (shown : String)
  | badOptionName (name : String)
  | badShortName (long : String)
  | badKind (long : String)
  | listOfFlags (long : String)
  | enumerationMissing (long : String)
  | parserMissing (long : String)
  | longTwice (command long : String)
  | shortTwice (command : String) (short : Char)
  deriving DecidableEq, Repr

def DefinitionError.message : DefinitionError → String
  | .notCommand shown => shown ++ " is not a Command subclass"
  | .abstractCommand typeName => "cannot register abstract command " ++ typeName
  | .noName => "command declares no name"
  | .badName name => "invalid command name: " ++ Text.quoted name
  | .notOption command shown =>
      "options of '" ++ command ++ "' must be Option declarations, got " ++ shown
  | .badOptionName name => "invalid option name: " ++ Text.quoted name
  | .badShortName long =>
      "short name of option --" ++ long ++ " must be a single character"
  | .badKind long => "option --" ++ long ++ " has no valid kind"
  | .listOfFlags long => "option --" ++ long ++ ": list of bool is not supported"
  | .enumerationMissing long =>
      "option --" ++ long ++ ": enum option needs enum_type"
  | .parserMissing long =>
      "option --" ++ long ++ ": structured option needs a parser name"
  | .longTwice command long =>
      "command '" ++ command ++ "' declares option --" ++ long ++ " twice"
  | .shortTwice command short =>
      "command '" ++ command ++ "' declares option -" ++ String.ofList [short] ++
        " twice"

def DefinitionError.toFailure (typeName : Option String) (error : DefinitionError) :
    Failure :=
  .definition error.message typeName

namespace OptionDeclaration

def nameIsBad (name : String) : Bool :=
  let chars := name.toList
  chars.isEmpty || chars.head? = some '-' || chars.contains '=' || chars.contains ' '

/-- A short name is one character that cannot be mistaken on the line. -/
def shortChar (declaration : OptionDeclaration) :
    Except DefinitionError (Option Char) :=
  match declaration.short with
  | none => .ok none
  | some name =>
      match name.toList with
      | [c] =>
          if c = '-' || c = '=' || c = ' ' then
            .error (.badShortName declaration.long)
          else .ok (some c)
      | _ => .error (.badShortName declaration.long)

/-- Options without a declared default start empty, and flags start unset. -/
def startValue (declaration : OptionDeclaration) (kind : Schema.Kind) : Value :=
  match declaration.default with
  | .null =>
      if declaration.isList then .list []
      else if kind = .bool then .bool false
      else .null
  | value => value

def slotName (declaration : OptionDeclaration) : String :=
  match declaration.slot with
  | some name => if name = "" then Text.replaceChar '-' '_' declaration.long
        else name
  | none => Text.replaceChar '-' '_' declaration.long

/-- Checks a declaration; the first defect in this order is reported. -/
def toSchema (declaration : OptionDeclaration) :
    Except DefinitionError OptionSchema :=
  if nameIsBad declaration.long then .error (.badOptionName declaration.long)
  else
    match declaration.shortChar with
    | .error error => .error error
    | .ok short =>
        match declaration.kind with
        | none => .error (.badKind declaration.long)
        | some kind =>
            if kind = .bool && declaration.isList then
              .error (.listOfFlags declaration.long)
            else if kind = .enum && declaration.enumeration.isNone then
              .error (.enumerationMissing declaration.long)
            else if kind = .structured && declaration.parser.getD "" = "" then
              .error (.parserMissing declaration.long)
            else
              .ok
                { long := declaration.long
                  short
                  required := declaration.required
                  description := declaration.description
                  kind
                  isList := declaration.isList
                  enumeration := declaration.enumeration
                  parser := declaration.parser
                  slot := declaration.slotName
                  default := declaration.startValue kind }

end OptionDeclaration

namespace OptionSchema

def isFlag (option : OptionSchema) : Bool :=
  option.kind = .bool

def display (option : OptionSchema) : String :=
  "--" ++ option.long

def memberNames (option : OptionSchema) : List String :=
  match option.enumeration with
  | none => []
  | some enumeration => enumeration.members.map Text.lower

def typeName (option : OptionSchema) : String :=
  let base :=
    match option.kind with
    | .enum => Text.join "|" option.memberNames
    | .structured => option.parser.getD ""
    | kind => kind.name
  if option.isList then "list<" ++ base ++ ">" else base

def shortText (option : OptionSchema) (otherwise : String) : String :=
  match option.short with
  | some c => "-" ++ String.ofList [c] ++ ", "
  | none => otherwise

def describe (option : OptionSchema) : String :=
  option.shortText "" ++ "--" ++ option.long ++
    (if option.required then " (required)" else "") ++
    ": " ++ option.typeName

/-- The line about the option in the help text of its command. -/
def helpLine (option : OptionSchema) : String :=
  "  " ++ option.shortText "    " ++ "--" ++ option.long ++
    (if option.isFlag then "" else " <" ++ option.typeName ++ ">") ++
    (if option.required then " (required)" else "") ++
    (if option.description = "" then "" else "  " ++ option.description)

end OptionSchema

end PipeShell
