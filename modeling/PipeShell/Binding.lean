import PipeShell.Pipeline
import PipeShell.Registry

namespace PipeShell

inductive BindError where
  | unknownCommand (name : String)
  | unknownOption (shown : String)
  | flagWithValue (long : String)
  | valueMissing (long : String)
  | notConverted (value long reason : String)
  | requiredMissing (long : String)
  deriving DecidableEq, Repr

def BindError.message : BindError → String
  | .unknownCommand name => "command not found: " ++ name
  | .unknownOption shown => "unknown option: " ++ shown
  | .flagWithValue long => "boolean option --" ++ long ++ " does not accept a value"
  | .valueMissing long => "option --" ++ long ++ " requires a value"
  | .notConverted value long reason =>
      "failed to convert value '" ++ value ++ "' for option --" ++ long ++
        ": " ++ reason
  | .requiredMissing long => "required option --" ++ long ++ " is missing"

def BindError.toFault (error : BindError) (command help : String) : Fault :=
  .failure (.bind (error.message ++ "\n\n" ++ help) (some command) [])

structure BoundCommand where
  command : Instance
  schema : CommandSchema
  arguments : List String
  redirections : Redirections

abbrev BoundPipeline := List BoundCommand

namespace Binding

structure State where
  command : Instance
  seen : List String
  /-- Words that flags gave back, each with the number of arguments before it. -/
  returned : List (Nat × String)

def State.markSeen (state : State) (long : String) : State :=
  { state with seen := if state.seen.contains long then state.seen
    else state.seen ++ [long] }

/-- Puts the words that flags gave back into their places among the arguments. -/
def insertReturned (inserted : Nat) : List (Nat × String) → List String → List String
  | [], arguments => arguments
  | (index, word) :: rest, arguments =>
      insertReturned (inserted + 1) rest
        (arguments.insertIdx (min (index + inserted) arguments.length) word)

def findOption (schema : CommandSchema) (occurrence : Occurrence) :
    Option OptionSchema :=
  if occurrence.isLong then schema.findLong? occurrence.name
  else schema.findShort? occurrence.name

variable (parsers : Parsers) (invocation : Invocation) (schema : CommandSchema)

def refuse (error : BindError) : Fault :=
  error.toFault invocation.name schema.help

/-- A flag takes no value; one from the next word goes back to the arguments. -/
def applyFlag (state : State) (occurrence : Occurrence) (option : OptionSchema) :
    Except Fault State :=
  if occurrence.hasValue && !occurrence.spaced then
    .error (refuse invocation schema (.flagWithValue option.long))
  else
    let returned :=
      if occurrence.hasValue then
        state.returned ++ [(occurrence.argumentIndex, occurrence.value.getD "")]
      else state.returned
    .ok ({ state with
      command := state.command.set option.slot (.bool true)
      returned }.markSeen option.long)

def extend (value : Value) (items : List Value) : Except Fault Value :=
  match value with
  | .list old => .ok (.list (old ++ items))
  | _ => .error (.absentMember "only a list can be extended")

/-- Stores a converted value. A list starts anew with the first occurrence of its
option. -/
def store (state : State) (option : OptionSchema) (value : Value) :
    Except Fault State :=
  match option.isList, value with
  | true, .list items =>
      let start :=
        if state.seen.contains option.long then state.command.value option.slot
          else .list []
      match extend start items with
      | .error fault => .error fault
      | .ok extended =>
          .ok ({ state with
            command := state.command.set option.slot extended }.markSeen option.long)
  | _, _ =>
      .ok ({ state with command := state.command.set option.slot value }.markSeen
        option.long)

def applyValue (state : State) (occurrence : Occurrence) (option : OptionSchema) :
    Except Fault State :=
  if !occurrence.hasValue then
    .error (refuse invocation schema (.valueMissing option.long))
  else
    let raw := occurrence.value.getD ""
    match Conversion.convert parsers option occurrence.quoted raw with
    | .ok value => store state option value
    | .error (.cancelled message) => .error (.cancelled message)
    | .error fault =>
        .error (refuse invocation schema
          (.notConverted raw option.long fault.message))

def apply (state : State) (occurrence : Occurrence) : Except Fault State :=
  match findOption schema occurrence with
  | none => .error (refuse invocation schema (.unknownOption occurrence.display))
  | some option =>
      if option.isFlag then applyFlag invocation schema state occurrence option
      else applyValue parsers invocation schema state occurrence option

def applyAll (state : State) : List Occurrence → Except Fault State
  | [] => .ok state
  | occurrence :: rest =>
      match apply parsers invocation schema state occurrence with
      | .error fault => .error fault
      | .ok next => applyAll next rest

def firstMissing (state : State) : Option OptionSchema :=
  schema.options.find? fun option =>
    option.required && !state.seen.contains option.long

def subsystem : String := "binder"

def boundNote (state : State) (arguments : List String) : Journal.Note :=
  .debug subsystem ("Bound command: " ++ schema.name)
    [("options", .int state.seen.length), ("arguments", .int arguments.length)]

def bindTo : Except Fault (BoundCommand × Journal.Note) :=
  match schema.newInstance with
  | .error fault => .error fault
  | .ok command =>
      match applyAll parsers invocation schema ⟨command, [], []⟩
        invocation.options with
      | .error fault => .error fault
      | .ok state =>
          match firstMissing schema state with
          | some option =>
              .error (refuse invocation schema (.requiredMissing option.long))
          | none =>
              let arguments := insertReturned 0 state.returned invocation.arguments
              .ok (⟨state.command, schema, arguments, invocation.redirections⟩,
                boundNote schema state arguments)

end Binding

namespace Registry

def bindCommand (registry : Registry) (parsers : Parsers) (invocation : Invocation) :
    Except Fault (BoundCommand × Journal.Note) :=
  match registry.lookup invocation.name with
  | some schema => Binding.bindTo parsers invocation schema
  | none =>
      .error ((BindError.unknownCommand invocation.name).toFault invocation.name
        registry.help)

/-- Binds the commands of a pipeline, up to the first that does not fit. The notes
come from those that fit. -/
def bind (registry : Registry) (parsers : Parsers) :
    Pipeline → List Journal.Note × Except Fault BoundPipeline
  | [] => ([], .ok [])
  | invocation :: rest =>
      match registry.bindCommand parsers invocation with
      | .error fault => ([], .error fault)
      | .ok (bound, note) =>
          let (notes, result) := registry.bind parsers rest
          (note :: notes, result.map (bound :: ·))

end Registry

end PipeShell
