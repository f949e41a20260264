import PipeShell.Text.CaseTable

namespace PipeShell.Text

def isCased (c : Char) : Bool :=
  c.isAlpha || inRanges casedRanges c

def isCaseIgnorable (c : Char) : Bool :=
  inRanges caseIgnorableRanges c

/-- The small letter of `c` on its own, and `c` where it has none. -/
def small (c : Char) : Char :=
  if c.toNat < 128 then
    c.toLower
  else if c = 'İ' then
    'i'
  else if c = 'Σ' then
    'σ'
  else
    match caseRuns.findSome? (·.small? c.toNat) with
    | some n => Char.ofNat n
    | none => c

def capitals (c : Char) : List Char :=
  (if c.toUpper = c then [] else [c.toUpper]) ++
    (if c = 'i' then ['İ'] else []) ++ (if c = 'σ' then ['Σ'] else []) ++
      (caseRuns.filterMap (·.capital? c.toNat)).map Char.ofNat

/-- Whether the next character that matters to a word is a letter with case. -/
def startsCased : List Char → Bool
  | [] => false
  | c :: rest => if isCaseIgnorable c then startsCased rest else isCased c

/-- Lower case of a text, where `inWord` tells whether a cased word is under way
before it. -/
def lowerChars (inWord : Bool) : List Char → List Char
  | [] => []
  | c :: rest =>
      let after := if isCaseIgnorable c then inWord else isCased c
      if c = 'Σ' then
        (if inWord && !startsCased rest then 'ς' else 'σ') :: lowerChars after rest
      else if c = 'İ' then
        'i' :: '\u0307' :: lowerChars after rest
      else
        small c :: lowerChars after rest

def lower (text : String) : String :=
  String.ofList (lowerChars false text.toList)

def startsWithIgnoringCase (text start : String) : Bool :=
  (lower start).toList.isPrefixOf (lower text).toList

/-- The capital letters of the basic alphabet that `c` stands for; other characters
stand for themselves. -/
def basicCapitals (c : Char) : List Char :=
  match c with
  | 'ı' => ['I']
  | 'ſ' => ['S']
  | 'ß' => ['S', 'S']
  | 'ﬀ' => ['F', 'F']
  | 'ﬁ' => ['F', 'I']
  | 'ﬂ' => ['F', 'L']
  | 'ﬃ' => ['F', 'F', 'I']
  | 'ﬄ' => ['F', 'F', 'L']
  | 'ﬅ' => ['S', 'T']
  | 'ﬆ' => ['S', 'T']
  | c => [c.toUpper]

/-- Upper case as far as the basic alphabet is concerned. It decides equality with a
name that is spelled in basic capitals: no other character has a capital of the basic
alphabet. -/
def basicUpper (text : String) : String :=
  String.ofList (text.toList.flatMap basicCapitals)

end PipeShell.Text
