import PipeShell.Channel.Newline
import PipeShell.Machine
import PipeShell.Text.Layout

namespace PipeShell.Channel

inductive Source where
  | empty
  | lines (items : List String)
  | file (path : String)
  deriving DecidableEq, Repr

def pieceSize : Nat := 8192

structure Reading where
  names : List String
  offset : Nat
  decoder : Text.Utf8.Decoder
  /-- Whether the last character was a carriage return, which waits for the next
  one. -/
  held : Bool
  ready : List Char

inductive Cursor where
  | finished
  | lines (items : List String)
  | unopened (path : String)
  | opened (reading : Reading)

namespace Reading

def start (names : List String) : Reading := ⟨names, 0, .start, false, []⟩

/-- Adds decoded characters; a carriage return at their end waits. -/
def accept (reading : Reading) (chars : List Char) : Reading :=
  if chars.isEmpty then reading
  else
    let all := if reading.held then '\r' :: chars else chars
    if all.getLast? = some '\r' then
      { reading with held := true, ready := reading.ready ++
        unifyNewlines all.dropLast }
    else
      { reading with held := false, ready := reading.ready ++ unifyNewlines all }

def takePiece (reading : Reading) (piece : List UInt8) :
    Except Text.Utf8.Fault Reading :=
  match reading.decoder.rebase.feed piece with
  | .error fault => .error fault
  | .ok (decoder, chars) =>
      .ok ({ reading with
        decoder, offset := reading.offset + piece.length }.accept chars)

def reachEnd (reading : Reading) : Except Text.Utf8.Fault Reading :=
  match reading.decoder.rebase.finish with
  | .error fault => .error fault
  | .ok () =>
      if reading.held then .ok
        { reading with held := false, ready := reading.ready ++ ['\n'] }
      else .ok reading

/-- Reads on until a line is complete or the file ends; `rest` is what follows the
offset. -/
def fill (reading : Reading) (rest : List UInt8) : Except Text.Utf8.Fault Reading :=
  if reading.ready.contains '\n' then .ok reading
  else if rest.isEmpty then reading.reachEnd
  else
    match reading.takePiece (rest.take pieceSize) with
    | .error fault => .error fault
    | .ok next => next.fill (rest.drop pieceSize)
termination_by rest.length
decreasing_by
  have : rest.length ≠ 0 := by
    intro h
    simp_all [List.eq_nil_of_length_eq_zero]
  simp only [List.length_drop, pieceSize]
  omega

def next (reading : Reading) (files : FileTree) :
    Except Text.Utf8.Fault (Option (String × Reading)) :=
  let filled :=
    if reading.ready.contains '\n' then .ok reading
    else reading.fill ((files.content reading.names).drop reading.offset)
  match filled with
  | .error fault => .error fault
  | .ok reading =>
      match Text.cutChars '\n' reading.ready with
      | (line, some rest) =>
          .ok (some (String.ofList line, { reading with ready := rest }))
      | ([], none) => .ok none
      | (line, none) => .ok (some (String.ofList line, { reading with ready := [] }))

end Reading

namespace Cursor

/-- Starts at the first line of a source. A cancelled run cannot even read
nothing. -/
def start (cancelled : Bool) : Source → Except Fault Cursor
  | .empty => if cancelled then .error .cancellation else .ok .finished
  | .lines items => .ok (.lines items)
  | .file path => .ok (.unopened path)

def nextOf (cancelled : Bool) (files : FileTree) (reading : Reading) :
    Except Fault (Option (String × Cursor)) :=
  match reading.next files with
  | .error fault => .error (.undecodable fault)
  | .ok none => .ok none
  | .ok (some (line, reading)) =>
      if cancelled then .error .cancellation else .ok (some (line, .opened reading))

def next (cancelled : Bool) (files : FileTree) :
    Cursor → Except Fault (Option (String × Cursor))
  | .finished => .ok none
  | .lines [] => .ok none
  | .lines (line :: rest) =>
      if cancelled then .error .cancellation else .ok (some (line, .lines rest))
  | .unopened path =>
      if cancelled then .error .cancellation
      else if FileTree.hasZero path then .error .zeroInPath
      else
        match files.openForReading path with
        | .error fault => .error (Machine.cannotOpen path fault)
        | .ok names => nextOf cancelled files (Reading.start names)
  | .opened reading => nextOf cancelled files reading

/-- More steps than it takes to reach the end of a source that does not grow. -/
def bound (files : FileTree) : Cursor → Nat
  | .finished => 1
  | .lines items => items.length + 1
  | .unopened path =>
      match files.openForReading path with
      | .ok names => (files.content names).length + 2
      | .error _ => 1
  | .opened reading =>
      reading.ready.length + (files.content reading.names).length + 3

/-- Adds the lines that are left, while the steps suffice. -/
def collect (cancelled : Bool) (files : FileTree) :
    (steps : Nat) → Array String → Cursor → Except Fault (Array String)
  | 0, _, _ => .error .endless
  | steps + 1, read, cursor =>
      match cursor.next cancelled files with
      | .error fault => .error fault
      | .ok none => .ok read
      | .ok (some (line, rest)) =>
          rest.collect cancelled files steps (read.push line)

end Cursor

def Source.readAll (cancelled : Bool) (files : FileTree) (source : Source) :
    Except Fault (List String) := do
  let cursor ← Cursor.start cancelled source
  return (← cursor.collect cancelled files (cursor.bound files) #[]).toList

end PipeShell.Channel
