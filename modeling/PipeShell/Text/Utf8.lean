import PipeShell.Text.Quoted

namespace PipeShell.Text.Utf8

inductive Defect where
  | startByte
  | continuationByte
  | truncated
  deriving DecidableEq, Repr

def Defect.reason : Defect → String
  | .startByte => "invalid start byte"
  | .continuationByte => "invalid continuation byte"
  | .truncated => "unexpected end of data"

structure Fault where
  defect : Defect
  position : Nat
  run : List UInt8
  deriving DecidableEq, Repr

def Fault.message (fault : Fault) : String :=
  match fault.run with
  | [byte] =>
      "'utf-8' codec can't decode byte 0x" ++
        String.ofList (hexDigits 2 byte.toNat) ++
        " in position " ++ toString fault.position ++ ": " ++ fault.defect.reason
  | run =>
      "'utf-8' codec can't decode bytes in position " ++
        toString fault.position ++ "-" ++
        toString (fault.position + run.length - 1) ++ ": " ++ fault.defect.reason

/-- The octets of the sequence under way, first to last, and the position of the next
octet. -/
structure Decoder where
  pending : List UInt8
  position : Nat
  deriving DecidableEq, Repr

def Decoder.start : Decoder := ⟨[], 0⟩

/-- Positions count anew from the first octet that is still pending. -/
def Decoder.rebase (decoder : Decoder) : Decoder :=
  { decoder with position := decoder.pending.length }

def sequenceLength (first : UInt8) : Option Nat :=
  if first < 0x80 then some 1
  else if first < 0xC2 then none
  else if first < 0xE0 then some 2
  else if first < 0xF0 then some 3
  else if first < 0xF5 then some 4
  else none

/-- Whether `byte` may follow the octets `pending` of one sequence. -/
def continues (pending : List UInt8) (byte : UInt8) : Bool :=
  0x80 ≤ byte && byte ≤ 0xBF &&
    match pending with
    | [0xE0] => 0xA0 ≤ byte
    | [0xF0] => 0x90 ≤ byte
    | [0xF4] => byte ≤ 0x8F
    | [0xED, second] => second < 0xA0
    | _ => true

def payload (byte : UInt8) : Nat := byte.toNat % 64

def assemble : List UInt8 → Char
  | [a] => Char.ofNat a.toNat
  | [a, b] => Char.ofNat (a.toNat % 32 * 64 + payload b)
  | [a, b, c] => Char.ofNat (a.toNat % 16 * 4096 + payload b * 64 + payload c)
  | [a, b, c, d] =>
      Char.ofNat (a.toNat % 8 * 262144 + payload b * 4096 + payload c *
        64 + payload d)
  | _ => Char.ofNat 0xFFFD

/-- The octets of a broken sequence that were well formed: a surrogate is wrong from
its second octet on. -/
def wellFormedPart (pending : List UInt8) : List UInt8 :=
  match pending with
  | [0xED, second] => if second < 0xA0 then pending else [0xED]
  | _ => pending

def Decoder.fault (decoder : Decoder) (defect : Defect) : Fault :=
  { defect
    position := decoder.position - decoder.pending.length
    run := wellFormedPart decoder.pending }

/-- Takes one octet; a character comes out when it completes a sequence. -/
def Decoder.step (decoder : Decoder) (byte : UInt8) :
    Except Fault (Decoder × Option Char) :=
  match decoder.pending with
  | [] =>
      match sequenceLength byte with
      | none => .error ⟨.startByte, decoder.position, [byte]⟩
      | some 1 => .ok (⟨[], decoder.position + 1⟩, some (assemble [byte]))
      | some _ => .ok (⟨[byte], decoder.position + 1⟩, none)
  | first :: more =>
      if continues decoder.pending byte then
        let run := first :: more ++ [byte]
        if sequenceLength first = some run.length then
          .ok (⟨[], decoder.position + 1⟩, some (assemble run))
        else
          .ok (⟨run, decoder.position + 1⟩, none)
      else
        .error (decoder.fault .continuationByte)

/-- Decodes one piece; what does not complete a sequence stays pending. -/
def Decoder.feed (decoder : Decoder) :
    List UInt8 → Except Fault (Decoder × List Char)
  | [] => .ok (decoder, [])
  | byte :: rest =>
      match decoder.step byte with
      | .error fault => .error fault
      | .ok (next, produced) =>
          match next.feed rest with
          | .error fault => .error fault
          | .ok (last, chars) => .ok (last, produced.toList ++ chars)

/-- The end of the data: a pending sequence is a defect. -/
def Decoder.finish (decoder : Decoder) : Except Fault Unit :=
  match decoder.pending with
  | [] => .ok ()
  | pending =>
      if wellFormedPart pending = pending then
        .error (decoder.fault .truncated)
      else
        .error (decoder.fault .continuationByte)

def decode (bytes : List UInt8) : Except Fault (List Char) := do
  let (decoder, chars) ← Decoder.start.feed bytes
  decoder.finish
  return chars

def encode (text : String) : List UInt8 :=
  text.toUTF8.toList

end PipeShell.Text.Utf8
