import PipeShell.Json.Basic

namespace PipeShell.Json

inductive Defect where
  | byteOrderMark
  | value
  | propertyName
  | colon
  | comma
  | extraData
  | unterminatedText
  | controlCharacter
  | escape
  | unicodeEscape
  deriving DecidableEq, Repr

def Defect.message : Defect → String
  | .byteOrderMark => "Unexpected UTF-8 BOM (decode using utf-8-sig)"
  | .value => "Expecting value"
  | .propertyName => "Expecting property name enclosed in double quotes"
  | .colon => "Expecting ':' delimiter"
  | .comma => "Expecting ',' delimiter"
  | .extraData => "Extra data"
  | .unterminatedText => "Unterminated string starting at"
  | .controlCharacter => "Invalid control character at"
  | .escape => "Invalid \\escape"
  | .unicodeEscape => "Invalid \\uXXXX escape"

inductive Fault where
  | malformed (defect : Defect) (position : Nat)
  | tooLong (digits : Nat)
  deriving DecidableEq, Repr

structure Cursor where
  rest : List Char
  position : Nat

def Cursor.advance (cursor : Cursor) (count : Nat) : Cursor :=
  ⟨cursor.rest.drop count, cursor.position + count⟩

def isSpace (c : Char) : Bool :=
  c = ' ' || c = '\t' || c = '\n' || c = '\r'

def Cursor.skipSpace (cursor : Cursor) : Cursor :=
  cursor.advance (cursor.rest.takeWhile isSpace).length

abbrev Reading (α : Type) := Except Fault (α × Cursor)

def fail {α : Type} (defect : Defect) (position : Nat) : Except Fault α :=
  .error (.malformed defect position)

def hexValue? (c : Char) : Option Nat :=
  if '0' ≤ c ∧ c ≤ '9' then some (c.toNat - 48)
  else if 'a' ≤ c ∧ c ≤ 'f' then some (c.toNat - 87)
  else if 'A' ≤ c ∧ c ≤ 'F' then some (c.toNat - 55)
  else none

def hexNumber? (digits : List Char) : Option Nat :=
  digits.foldlM (fun n c => (hexValue? c).map (16 * n + ·)) 0

def simpleEscape? : Char → Option Char
  | '"' => some '"'
  | '\\' => some '\\'
  | '/' => some '/'
  | 'b' => some '\x08'
  | 'f' => some '\x0c'
  | 'n' => some '\n'
  | 'r' => some '\r'
  | 't' => some '\t'
  | _ => none

def isHighSurrogate (n : Nat) : Bool := 0xD800 ≤ n && n ≤ 0xDBFF

def isLowSurrogate (n : Nat) : Bool := 0xDC00 ≤ n && n ≤ 0xDFFF

/-- A code point, with the replacement character for a lone surrogate. -/
def charOf (n : Nat) : Char :=
  if isHighSurrogate n || isLowSurrogate n then Char.ofNat 0xFFFD else Char.ofNat n

/-- The low half of a surrogate pair, if the text goes on with one. It must not be
the very end of the text. -/
def lowHalf (rest : List Char) (position : Nat) : Except Fault (Option Nat) :=
  match rest with
  | '\\' :: 'u' :: digits =>
      if digits.length ≤ 4 then .ok none
      else
        match hexNumber? (digits.take 4) with
        | none => fail .unicodeEscape (position + 1)
        | some low => .ok (if isLowSurrogate low then some low else none)
  | _ => .ok none

/-- Reads the four hexadecimal digits of an escape whose `u` stands at `position`;
gives the character and the number of characters read. The text must go on after the
digits. -/
def unicodeEscape (rest : List Char) (position : Nat) : Except Fault (Char × Nat) :=
  if rest.length ≤ 4 then fail .unicodeEscape position
  else
    match hexNumber? (rest.take 4) with
    | none => fail .unicodeEscape position
    | some high =>
        if isHighSurrogate high then
          match lowHalf (rest.drop 4) (position + 5) with
          | .error fault => .error fault
          | .ok (some low) =>
              .ok
                (Char.ofNat (0x10000 + (high - 0xD800) * 0x400 + (low - 0xDC00)), 10)
          | .ok none => .ok (charOf high, 4)
        else
          .ok (charOf high, 4)

/-- Reads a text after its opening quote, which stands at `start`. `read` holds the
characters so far, last first, and `fuel` bounds the characters that are left. -/
def textFrom (start : Nat) :
    (fuel : Nat) → (read : List Char) → Cursor → Reading String
  | 0, _, _ => fail .unterminatedText start
  | fuel + 1, read, cursor =>
      match cursor.rest with
      | [] => fail .unterminatedText start
      | '"' :: _ => .ok (String.ofList read.reverse, cursor.advance 1)
      | ['\\'] => fail .unterminatedText start
      | '\\' :: 'u' :: digits =>
          match unicodeEscape digits (cursor.position + 1) with
          | .error fault => .error fault
          | .ok (c, count) =>
              textFrom start fuel (c :: read) (cursor.advance (count + 2))
      | '\\' :: c :: _ =>
          match simpleEscape? c with
          | none => fail .escape cursor.position
          | some c => textFrom start fuel (c :: read) (cursor.advance 2)
      | c :: _ =>
          if c.toNat < 0x20 then fail .controlCharacter cursor.position
          else textFrom start fuel (c :: read) (cursor.advance 1)

def readText (cursor : Cursor) : Reading String :=
  textFrom cursor.position (cursor.rest.length + 1) [] (cursor.advance 1)

/-- The digits of the whole part: a single zero, or digits that start with another
one. -/
def wholeDigits (rest : List Char) : List Char :=
  match rest with
  | '0' :: _ => ['0']
  | _ => rest.takeWhile Number.isAsciiDigit

/-- A point with digits after it, as far as the text has one. -/
def fractionPart (rest : List Char) : List Char :=
  match rest with
  | '.' :: after =>
      match after.takeWhile Number.isAsciiDigit with
      | [] => []
      | digits => '.' :: digits
  | _ => []

/-- An exponent with digits, as far as the text has one. -/
def exponentPart (rest : List Char) : List Char :=
  match rest with
  | e :: after =>
      if e = 'e' || e = 'E' then
        let sign := match after with
          | '+' :: _ => ['+']
          | '-' :: _ => ['-']
          | _ => []
        match (after.drop sign.length).takeWhile Number.isAsciiDigit with
        | [] => []
        | digits => e :: sign ++ digits
      else []
  | [] => []

def readNumber (cursor : Cursor) : Reading Json :=
  let sign := match cursor.rest with
    | '-' :: _ => ['-']
    | _ => []
  let whole := wholeDigits (cursor.rest.drop sign.length)
  if whole.isEmpty then fail .value cursor.position
  else
    let rest := cursor.rest.drop (sign.length + whole.length)
    let fraction := fractionPart rest
    let exponent := exponentPart (rest.drop fraction.length)
    let written := sign ++ whole ++ fraction ++ exponent
    let after := cursor.advance written.length
    if fraction.isEmpty && exponent.isEmpty then
      if Number.maxDigits < whole.length then .error (.tooLong whole.length)
      else
        .ok (.int (Number.signed (!sign.isEmpty) (Number.natOfDigits whole)), after)
    else
      match Number.readDecimal? written with
      | some d => .ok (.real (Number.Binary64.ofDecimal d), after)
      | none => fail .value cursor.position

def constants : List (String × Json) :=
  [("null", .null), ("true", .bool true), ("false", .bool false),
   ("NaN", .real Number.Binary64.notANumber),
   ("Infinity", .real (Number.Binary64.infinity false)),
   ("-Infinity", .real (Number.Binary64.infinity true))]

def readConstant? (cursor : Cursor) : Option (Json × Cursor) :=
  (constants.find? fun entry => entry.1.toList.isPrefixOf cursor.rest).map
    fun entry =>
    (entry.2, cursor.advance entry.1.length)

mutual

/-- Reads a value; `fuel` bounds the nesting and the number of items together. -/
def readValue : (fuel : Nat) → Cursor → Reading Json
  | 0, cursor => fail .value cursor.position
  | fuel + 1, cursor =>
      match cursor.rest with
      | '"' :: _ =>
          match readText cursor with
          | .error fault => .error fault
          | .ok (s, after) => .ok (.text s, after)
      | '[' :: _ =>
          let inside := (cursor.advance 1).skipSpace
          match inside.rest with
          | ']' :: _ => .ok (.list [], inside.advance 1)
          | _ => readItems fuel [] inside
      | '\x7b' :: _ =>
          let inside := (cursor.advance 1).skipSpace
          match inside.rest with
          | '\x7d' :: _ => .ok (.object [], inside.advance 1)
          | _ => readFields fuel [] inside
      | _ =>
          match readConstant? cursor with
          | some result => .ok result
          | none => readNumber cursor

/-- Reads the items of a list from the next item on; `read` holds those before, last
first. -/
def readItems : (fuel : Nat) → (read : List Json) → Cursor → Reading Json
  | 0, _, cursor => fail .value cursor.position
  | fuel + 1, read, cursor =>
      match readValue fuel cursor with
      | .error fault => .error fault
      | .ok (item, after) =>
          let after := after.skipSpace
          match after.rest with
          | ']' :: _ => .ok (.list (item :: read).reverse, after.advance 1)
          | ',' :: _ => readItems fuel (item :: read) (after.advance 1).skipSpace
          | _ => fail .comma after.position

def readFields : (fuel : Nat) → (read : List (String × Json)) → Cursor → Reading Json
  | 0, _, cursor => fail .value cursor.position
  | fuel + 1, read, cursor =>
      match cursor.rest with
      | '"' :: _ =>
          match readText cursor with
          | .error fault => .error fault
          | .ok (key, after) =>
              let after := after.skipSpace
              match after.rest with
              | ':' :: _ =>
                  match readValue fuel (after.advance 1).skipSpace with
                  | .error fault => .error fault
                  | .ok (item, after) =>
                      let read := Table.set key item read
                      let after := after.skipSpace
                      match after.rest with
                      | '\x7d' :: _ => .ok (.object read, after.advance 1)
                      | ',' :: _ => readFields fuel read (after.advance 1).skipSpace
                      | _ => fail .comma after.position
              | _ => fail .colon after.position
      | _ => fail .propertyName cursor.position

end

/-- Reads a whole text as one value with blanks around it. -/
def parse (source : List Char) : Except Fault Json :=
  match source with
  | '\uFEFF' :: _ => fail .byteOrderMark 0
  | _ =>
      match readValue (2 * source.length + 4) (Cursor.mk source 0).skipSpace with
      | .error fault => .error fault
      | .ok (result, after) =>
          let after := after.skipSpace
          if after.rest.isEmpty then .ok result else fail .extraData after.position

/-- A position as line and column, both counted from one. -/
def lineAndColumn (source : List Char) (position : Nat) : Nat × Nat :=
  let before := source.take position
  (before.count '\n' + 1, (before.reverse.takeWhile (· ≠ '\n')).length + 1)

def Fault.message (source : List Char) : Fault → String
  | .malformed defect position =>
      let (line, column) := lineAndColumn source position
      defect.message ++ ": line " ++ toString line ++ " column " ++
        toString column ++ " (char " ++
        toString position ++ ")"
  | .tooLong digits => Number.tooLongMessage digits

end PipeShell.Json
