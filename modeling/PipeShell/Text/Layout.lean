namespace PipeShell.Text

def spaces (n : Nat) : String :=
  String.ofList (List.replicate n ' ')

/-- Fills up with spaces on the right to at least `width` characters. -/
def padRight (width : Nat) (text : String) : String :=
  text ++ spaces (width - text.length)

/-- Fills up with spaces on the left to at least `width` characters. -/
def padLeft (width : Nat) (text : String) : String :=
  spaces (width - text.length) ++ text

/-- Fills up with zeros on the left to at least `width` characters. -/
def zeroPad (width : Nat) (text : String) : String :=
  String.ofList (List.replicate (width - text.length) '0') ++ text

def join (separator : String) (parts : List String) : String :=
  separator.intercalate parts

/-- Splits at every separator; the result is never empty. -/
def splitChars (separator : Char) : List Char → List (List Char)
  | [] => [[]]
  | c :: rest =>
      if c = separator then
        [] :: splitChars separator rest
      else
        match splitChars separator rest with
        | [] => [[c]]
        | part :: parts => (c :: part) :: parts

def split (separator : Char) (text : String) : List String :=
  (splitChars separator text.toList).map String.ofList

/-- The part before the first separator and, if there is one, the part after it. -/
def cutChars (separator : Char) : List Char → List Char × Option (List Char)
  | [] => ([], none)
  | c :: rest =>
      if c = separator then
        ([], some rest)
      else
        let (before, after) := cutChars separator rest
        (c :: before, after)

/-- The part up to and including the last separator, and the part after it. -/
def cutLastChars (separator : Char) (text : List Char) : List Char × List Char :=
  let after := (text.reverse.takeWhile (· ≠ separator)).reverse
  (text.take (text.length - after.length), after)

def startsWith (text start : String) : Bool :=
  start.toList.isPrefixOf text.toList

def contains (text : String) (c : Char) : Bool :=
  text.toList.contains c

def replaceChar (old new : Char) (text : String) : String :=
  String.ofList (text.toList.map fun c => if c = old then new else c)

end PipeShell.Text
