import PipeShell.Machine

namespace PipeShell

namespace Channel

structure LineBuffer where
  lines : Array String
  rest : String

namespace LineBuffer

def empty : LineBuffer := ⟨#[], ""⟩

def write (buffer : LineBuffer) (text : String) : LineBuffer :=
  { buffer with rest := buffer.rest ++ text }

def writeLine (buffer : LineBuffer) (line : String) : LineBuffer :=
  ⟨buffer.lines.push (buffer.rest ++ line), ""⟩

def flush (buffer : LineBuffer) : LineBuffer :=
  if buffer.rest = "" then buffer else buffer.writeLine ""

end LineBuffer

inductive Writer where
  | text (written : String)
  | lines (buffer : LineBuffer)
  | file (handle : Nat)
  | console
  | errorConsole

namespace Writer

def write (writer : Writer) (machine : Machine) (text : String) :
    Except Fault (Writer × Machine) :=
  match writer with
  | .text written => .ok (.text (written ++ text), machine)
  | .lines buffer => .ok (.lines (buffer.write text), machine)
  | .file handle =>
      (machine.writeOutput handle text).map fun machine => (writer, machine)
  | .console => .ok (writer, machine.print text)
  | .errorConsole => .ok (writer, machine.printError text)

def writeLine (writer : Writer) (machine : Machine) (line : String) :
    Except Fault (Writer × Machine) :=
  match writer with
  | .lines buffer => .ok (.lines (buffer.writeLine line), machine)
  | _ => writer.write machine (line ++ "\n")

/-- Takes back everything written, where that can be done. -/
def clear : Writer → Except Fault Writer
  | .text _ => .ok (.text "")
  | .lines _ => .ok (.lines .empty)
  | .file _ => .error (.unsupported "clear is not supported for file output")
  | .console => .error (.unsupported "clear is not supported for stream output")
  | .errorConsole => .error (.unsupported "clear is not supported for stream output")

def collected : Writer → String
  | .text written => written
  | _ => ""

end Writer

end Channel

end PipeShell
