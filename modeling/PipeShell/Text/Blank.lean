namespace PipeShell.Text

def isBlank (c : Char) : Bool :=
  let n := c.toNat
  (0x09 ≤ n && n ≤ 0x0D) || (0x1C ≤ n && n ≤ 0x20) || n == 0x85 || n == 0xA0 ||
    n == 0x1680 ||
    (0x2000 ≤ n && n ≤ 0x200A) || n == 0x2028 || n == 0x2029 || n == 0x202F ||
      n == 0x205F ||
    n == 0x3000

def stripChars (text : List Char) : List Char :=
  ((text.dropWhile isBlank).reverse.dropWhile isBlank).reverse

def strip (text : String) : String :=
  String.ofList (stripChars text.toList)

def allBlank (text : String) : Bool :=
  text.toList.all isBlank

/-- The words of a text, where `word` holds the characters of the word under way,
last first. -/
def wordsFrom (word : List Char) : List Char → List (List Char)
  | [] => if word.isEmpty then [] else [word.reverse]
  | c :: rest =>
      if isBlank c then
        if word.isEmpty then wordsFrom [] rest else word.reverse :: wordsFrom [] rest
      else
        wordsFrom (c :: word) rest

/-- The maximal runs of characters that are not white space. -/
def words (text : String) : List String :=
  (wordsFrom [] text.toList).map String.ofList

/-- Characters that end a line; the pair of carriage return and line feed ends one
line. -/
def isLineBreak (c : Char) : Bool :=
  let n := c.toNat
  (0x0A ≤ n && n ≤ 0x0D) || (0x1C ≤ n && n ≤ 0x1E) || n == 0x85 || n == 0x2028 ||
    n == 0x2029

/-- The lines of a text, where `line` holds the characters of the line under way,
last first. -/
def linesFrom (line : List Char) : List Char → List (List Char)
  | [] => if line.isEmpty then [] else [line.reverse]
  | '\r' :: '\n' :: rest => line.reverse :: linesFrom [] rest
  | c :: rest =>
      if isLineBreak c then line.reverse :: linesFrom [] rest
        else linesFrom (c :: line) rest

/-- The lines of a text without their terminators; a last line may lack one. -/
def lines (text : String) : List String :=
  (linesFrom [] text.toList).map String.ofList

end PipeShell.Text
