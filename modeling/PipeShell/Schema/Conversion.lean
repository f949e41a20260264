import PipeShell.Schema.Option

namespace PipeShell

/-- Reads the text of a structured value; provided by the host. -/
abbrev ValueParser := String → Except Fault Value

abbrev Parsers := Table ValueParser

namespace Conversion

def refused (raw target : String) : Fault :=
  .badValue ("cannot convert '" ++ raw ++ "' to " ++ target)

def toInt (raw : String) : Except Fault Value :=
  match Number.readInteger raw.toList with
  | .ok n => .ok (.int n)
  | .error .notNumeral => .error (refused raw "int")
  | .error (.tooLong digits) => .error (.badValue (Number.tooLongMessage digits))

def toFloat (raw : String) : Except Fault Value :=
  match Number.readDecimal? raw.toList with
  | some d => .ok (.float (.ofDecimal d))
  | none => .error (refused raw "float")

def trueWords : List String := ["true", "1", "yes", "on"]

def falseWords : List String := ["false", "0", "no", "off"]

def toBool (raw : String) : Except Fault Value :=
  let lowered := Text.lower raw
  if trueWords.contains lowered then .ok (.bool true)
  else if falseWords.contains lowered then .ok (.bool false)
  else .error (refused raw "bool")

/-- The first member whose name matches when case is ignored. -/
def toMember (raw : String) (enumeration : Enumeration) : Except Fault Value :=
  match enumeration.members.find? fun name => Text.lower name = Text.lower raw with
  | some name => .ok (.member name)
  | none =>
      .error (refused raw (enumeration.name ++ ". Valid values: " ++
        Text.join ", " (enumeration.members.map Text.lower)))

def toStructured (parsers : Parsers) (raw : String) (parser : Option String) :
    Except Fault Value :=
  match parser.bind (Table.get? · parsers) with
  | some parse => parse raw
  | none =>
      .error (.badValue ("no parser registered for '" ++ parser.getD "None" ++ "'"))

def scalar (parsers : Parsers) (kind : Schema.Kind)
    (enumeration : Option Enumeration) (parser : Option String) (raw : String) :
    Except Fault Value :=
  match kind with
  | .string => .ok (.text raw)
  | .int => toInt raw
  | .float => toFloat raw
  | .bool => toBool raw
  | .enum =>
      match enumeration with
      | some enumeration => toMember raw enumeration
      | none => .error (.mistyped "members expected")
  | .structured => toStructured parsers raw parser

def unsupportedKind (shown : String) : Fault :=
  .badValue ("unsupported option kind: " ++ shown)

def element (parsers : Parsers) (option : OptionSchema) (raw : String) :
    Except Fault Value :=
  scalar parsers option.kind option.enumeration option.parser raw

/-- The elements of a list value: an unquoted text is cut at its commas. -/
def elements (quoted : Bool) (raw : String) : List String :=
  if quoted then [raw] else Text.split ',' raw

def convert (parsers : Parsers) (option : OptionSchema) (quoted : Bool)
    (raw : String) :
    Except Fault Value :=
  if option.isList then
    ((elements quoted raw).mapM (element parsers option)).map Value.list
  else
    element parsers option raw

end Conversion

end PipeShell
