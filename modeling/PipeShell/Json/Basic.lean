import PipeShell.Number.Binary64
import PipeShell.Table
import PipeShell.Text.Quoted

namespace PipeShell

inductive Json where
  | null
  | bool (value : Bool)
  | int (value : Int)
  | real (value : Number.Binary64)
  | text (value : String)
  | list (items : List Json)
  | object (fields : List (String × Json))
  deriving Inhabited

namespace Json

def field? (data : Json) (key : String) : Option Json :=
  match data with
  | .object fields => Table.get? key fields
  | _ => none

def truthy : Json → Bool
  | .null => false
  | .bool b => b
  | .int n => n ≠ 0
  | .real x => !x.isZero
  | .text s => s ≠ ""
  | .list items => !items.isEmpty
  | .object fields => !fields.isEmpty

/-- The whole number that a value equals, where truth values count as 0 and 1. -/
def wholeNumber? : Json → Option Int
  | .bool b => some (if b then 1 else 0)
  | .int n => some n
  | .real x =>
      if x.isNaN || x.isInfinite then none
      else
        let (n, d) := Number.Binary64.scale x.significand 1 x.exponent
        if n % d = 0 then some (Number.signed x.isNegative (n / d)) else none
  | _ => none

def specialNames : Number.Binary64.SpecialNames := ⟨"nan", "inf"⟩

def intText (n : Int) : String :=
  (if n < 0 then "-" else "") ++ String.ofList (Number.digitsOfNat n.natAbs)

mutual

/-- The value written as a literal, with texts in quotes. -/
def literal : Json → String
  | .null => "None"
  | .bool b => if b then "True" else "False"
  | .int n => intText n
  | .real x => x.textWith specialNames
  | .text s => Text.quoted s
  | .list items => "[" ++ Text.join ", " (literals items) ++ "]"
  | .object fields => "\x7b" ++ Text.join ", " (fieldLiterals fields) ++ "\x7d"

def literals : List Json → List String
  | [] => []
  | item :: rest => literal item :: literals rest

def fieldLiterals : List (String × Json) → List String
  | [] => []
  | (key, value) :: rest =>
      (Text.quoted key ++ ": " ++ literal value) :: fieldLiterals rest

end

/-- The value as it stands in a sentence: a text bare, anything else as its
literal. -/
def display : Json → String
  | .text s => s
  | other => other.literal

end Json

end PipeShell
