import PipeShell.Journal
import PipeShell.Schema.Command

namespace PipeShell

structure Registry where
  commands : Table CommandSchema

namespace Registry

def empty : Registry := ⟨[]⟩

def size (registry : Registry) : Nat := registry.commands.length

def isEmpty (registry : Registry) : Bool := registry.commands.isEmpty

def lookup (registry : Registry) (name : String) : Option CommandSchema :=
  Table.get? (Text.lower name) registry.commands

def contains (registry : Registry) (name : String) : Bool :=
  (registry.lookup name).isSome

/-- The names as they were registered, in the order of registration. -/
def names (registry : Registry) : List String :=
  registry.commands.map (·.2.name)

def subsystem : String := "registry"

def duplicateNote (schema previous : CommandSchema) : Journal.Note :=
  .warning subsystem ("Duplicate command name '" ++ schema.name ++
    "' - using last registered")
    [("previous", .text previous.typeName), ("current", .text schema.typeName)]

def registeredNote (schema : CommandSchema) : Journal.Note :=
  .debug subsystem ("Registered command: " ++ schema.name)
    [("options", .int schema.options.length)]

def add (registry : Registry) (schema : CommandSchema) :
    Registry × List Journal.Note :=
  let key := Text.lower schema.name
  let duplicate :=
    match Table.get? key registry.commands with
    | some previous => [duplicateNote schema previous]
    | none => []
  (⟨Table.set key schema registry.commands⟩, duplicate ++ [registeredNote schema])

def register (registry : Registry) (registrant : Registrant) :
    Except Failure (CommandSchema × Registry × List Journal.Note) :=
  match registrant.toSchema with
  | .error failure => .error failure
  | .ok schema => .ok (schema, registry.add schema)

def unregister (registry : Registry) (name : String) : Bool × Registry :=
  (registry.contains name, ⟨Table.erase (Text.lower name) registry.commands⟩)

structure Outcome where
  registry : Registry
  notes : List Journal.Note
  /-- How many were registered, or the failure that stopped the run. -/
  result : Except Failure Nat

/-- Registers one after the other, up to the first failure. -/
def registerAll (registry : Registry) : List Registrant → Outcome
  | [] => ⟨registry, [], .ok 0⟩
  | registrant :: rest =>
      match registry.register registrant with
      | .error failure => ⟨registry, [], .error failure⟩
      | .ok (_, registry, notes) =>
          let outcome := registry.registerAll rest
          ⟨outcome.registry, notes ++ outcome.notes, outcome.result.map (· + 1)⟩

structure ModuleMember where
  name : String
  home : String
  registrant : Registrant

/-- A scan passes over what was defined elsewhere, is abstract or has no name, and
makes instances directly. -/
def scanned (moduleName : String) (member : ModuleMember) : Option Registrant :=
  match member.registrant with
  | .command declaration =>
      if member.home ≠ moduleName || declaration.isAbstract ||
        !declaration.name.truthy then none
      else some (.command { declaration with factory := .itself })
  | _ => none

/-- What a scan registers, in the order of the members' names. -/
def eligible (moduleName : String) (members : List ModuleMember) : List Registrant :=
  (members.mergeSort fun a b => a.name ≤ b.name).filterMap (scanned moduleName)

/-- Registers the commands among the members of a module. -/
def scan (registry : Registry) (moduleName : String) (members : List ModuleMember) :
    Outcome :=
  let outcome := registry.registerAll (eligible moduleName members)
  match outcome.result with
  | .error _ => outcome
  | .ok count =>
      let note := Journal.Note.debug subsystem ("Scanned module " ++ moduleName)
        [("registered", .int count)]
      { outcome with notes := outcome.notes ++ [note] }

def helpLine (schema : CommandSchema) : String :=
  "  " ++ Text.padRight 20 schema.name ++ " " ++ schema.description

def sortedByName (commands : List CommandSchema) : List CommandSchema :=
  commands.mergeSort fun a b => Text.lower a.name ≤ Text.lower b.name

def help (registry : Registry) : String :=
  Text.join "\n" (["Available commands:", ""] ++
    (sortedByName (registry.commands.map (·.2))).map helpLine) ++ "\n"

end Registry

end PipeShell
