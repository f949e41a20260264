import PipeShell.Program
import PipeShell.Schema.Conversion
import PipeShell.Text.Blank

namespace PipeShell

inductive DeclaredOption where
  | option (declaration : OptionDeclaration)
  | other (value : Json)

structure CommandDeclaration where
  typeName : String
  /-- What the declaration gives as its name; a text that is not blank is one. -/
  name : Json
  description : String
  options : List DeclaredOption
  /-- An abstract command has no body, and needs a factory for its instances. -/
  isAbstract : Bool
  factory : Factory
  program : Program
  hook : Hook

inductive Registrant where
  | command (declaration : CommandDeclaration)
  /-- A type that is no command, with the text that stands for it. -/
  | plainType (shown : String)
  | data (value : Json)

structure CommandSchema where
  name : String
  description : String
  options : List OptionSchema
  typeName : String
  factory : Factory
  program : Program
  hook : Hook

structure Instance where
  typeName : String
  name : String
  values : Table Value
  program : Program
  hook : Hook

namespace CommandDeclaration

/-- The characters that end or quote a word cannot be part of a name. -/
def nameBreakers : List Char := [' ', '|', '<', '>', '\'', '"', '\\', '\t']

def validName (declaration : CommandDeclaration) : Except DefinitionError String :=
  match declaration.name with
  | .text name =>
      if Text.allBlank name then .error .noName
      else if name.toList.any nameBreakers.contains then .error (.badName name)
      else .ok name
  | _ => .error .noName

def validOption (command : String) :
    DeclaredOption → Except DefinitionError OptionSchema
  | .other value => .error (.notOption command value.literal)
  | .option declaration => declaration.toSchema

/-- Long names differ even when case is ignored, short names differ as they are. -/
def checkNames (command : String) (longs : List String) (shorts : List Char) :
    List OptionSchema → Except DefinitionError Unit
  | [] => .ok ()
  | option :: rest =>
      let long := Text.lower option.long
      if longs.contains long then .error (.longTwice command option.long)
      else
        match option.short with
        | none => checkNames command (long :: longs) shorts rest
        | some short =>
            if shorts.contains short then .error (.shortTwice command short)
            else checkNames command (long :: longs) (short :: shorts) rest

/-- Checks a declaration. An abstract one needs a factory other than itself. -/
def toSchema (declaration : CommandDeclaration) :
    Except DefinitionError CommandSchema := do
  if declaration.isAbstract && declaration.factory.isItself then
    throw (.abstractCommand declaration.typeName)
  let name ← declaration.validName
  let options ← declaration.options.mapM (validOption name)
  checkNames name [] [] options
  .ok
    { name
      description := declaration.description
      options
      typeName := declaration.typeName
      factory := declaration.factory
      program := declaration.program
      hook := declaration.hook }

end CommandDeclaration

namespace Registrant

def toSchema : Registrant → Except Failure CommandSchema
  | .command declaration =>
      match declaration.toSchema with
      | .ok schema => .ok schema
      | .error error => .error (error.toFailure (some declaration.typeName))
  | .plainType shown => .error ((DefinitionError.notCommand shown).toFailure none)
  | .data value => .error ((DefinitionError.notCommand value.literal).toFailure none)

end Registrant

namespace CommandSchema

def findLong? (schema : CommandSchema) (name : String) : Option OptionSchema :=
  schema.options.find? fun option => Text.lower option.long = Text.lower name

def shortName (option : OptionSchema) : Option String :=
  option.short.map fun c => String.ofList [c]

/-- A short name that is met exactly goes before one that differs in case. -/
def findShort? (schema : CommandSchema) (name : String) : Option OptionSchema :=
  match schema.options.find? fun option => shortName option = some name with
  | some option => some option
  | none =>
      schema.options.find? fun option =>
        (shortName option).map Text.lower = some (Text.lower name)

/-- Every option at its default. Of two options with the same slot the later one
counts. -/
def defaults (schema : CommandSchema) : Table Value :=
  schema.options.foldl (fun values option =>
    Table.set option.slot option.default values) []

def newInstance (schema : CommandSchema) : Except Fault Instance :=
  match schema.factory with
  | .raises fault => .error fault
  | .itself =>
      .ok ⟨schema.typeName, schema.name, schema.defaults, schema.program,
        schema.hook⟩
  | .derived =>
      .ok ⟨"Sub" ++ schema.typeName, schema.name, schema.defaults, schema.program,
        schema.hook⟩

def help (schema : CommandSchema) : String :=
  let lines := [schema.name ++ " - " ++ schema.description, ""] ++
    if schema.options.isEmpty then []
    else "Options:" :: schema.options.map OptionSchema.helpLine
  Text.join "\n" lines ++ "\n"

end CommandSchema

namespace Instance

def value (command : Instance) (slot : String) : Value :=
  (Table.get? slot command.values).getD .null

def set (command : Instance) (slot : String) (value : Value) : Instance :=
  { command with values := Table.set slot value command.values }

/-! Every command has a name, a program and a hook under slots of their own. An
option that is stored under such a slot hides what the command has there. -/

def nameSlot : String := "name"

def programSlot : String := "execute"

def hookSlot : String := "get_completions"

def describe (command : Instance) : String :=
  command.typeName ++ "(name=" ++
    (match Table.get? nameSlot command.values with
      | some value => value.literal
      | none => Text.quoted command.name) ++ ")"

end Instance

end PipeShell
