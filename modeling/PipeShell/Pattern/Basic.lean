import PipeShell.Text.Blank
import PipeShell.Text.Case
import PipeShell.Text.Digit
import PipeShell.Text.Letter

namespace PipeShell.Pattern

inductive Category where
  | digit
  | space
  | word
  deriving DecidableEq, Repr

def Category.contains : Category → Char → Bool
  | .digit => Text.isDecimal
  | .space => Text.isBlank
  | .word => Text.isWordChar

inductive SetItem where
  | range (first last : Nat)
  | category (kind : Category)
  | outside (kind : Category)
  deriving DecidableEq, Repr

def SetItem.single (code : Nat) : SetItem := .range code code

inductive Anchor where
  | lineStart
  | lineEnd
  | textEnd
  | wordEdge
  | noWordEdge
  deriving DecidableEq, Repr

/-- In which order the numbers of repetitions are tried. -/
inductive Greed where
  | most
  | least
  | all
  deriving DecidableEq, Repr

inductive Node where
  | empty
  | any
  | oneOf (items : List SetItem)
  | noneOf (items : List SetItem)
  | anchor (kind : Anchor)
  | cat (first second : Node)
  | either (first second : Node)
  | repeated (least : Nat) (most : Option Nat) (greed : Greed) (body : Node)
  | group (index : Nat) (body : Node)
  | again (index : Nat)
  | ahead (body : Node)
  | notAhead (body : Node)
  deriving Repr

def Node.sequence (nodes : List Node) : Node :=
  nodes.foldr .cat .empty

/-- The first of the alternatives that fits; no alternative at all fits like an empty
one. -/
def Node.choice : List Node → Node
  | [] => .empty
  | [node] => node
  | node :: rest => .either node (Node.choice rest)

def siblingSets : List (List Char) :=
  [ ['i', 'ı'], ['s', 'ſ'], ['µ', 'μ'], ['ͅ', 'ι', 'ι'], ['ΐ', 'ΐ'],
    ['ΰ', 'ΰ'], ['β', 'ϐ'], ['ε', 'ϵ'], ['θ', 'ϑ'], ['κ', 'ϰ'], ['π', 'ϖ'],
    ['ρ', 'ϱ'], ['ς', 'σ'], ['φ', 'ϕ'], ['в', 'ᲀ'], ['д', 'ᲁ'], ['о', 'ᲂ'],
    ['с', 'ᲃ'], ['т', 'ᲄ', 'ᲅ'], ['ъ', 'ᲆ'], ['ѣ', 'ᲇ'], ['ꙋ', 'ᲈ'],
    ['ṡ', 'ẛ'], ['ﬅ', 'ﬆ'] ]

def siblings (c : Char) : List Char :=
  (siblingSets.find? (·.contains c)).getD [c]

def variants (c : Char) : List Char :=
  (siblings (Text.small c)).flatMap fun letter => letter :: Text.capitals letter

def SetItem.contains (ignoreCase : Bool) (c : Char) : SetItem → Bool
  | .range first last =>
      if ignoreCase then (variants c).any fun v => first ≤ v.toNat && v.toNat ≤ last
      else first ≤ c.toNat && c.toNat ≤ last
  | .category kind => kind.contains c
  | .outside kind => !kind.contains c

end PipeShell.Pattern
