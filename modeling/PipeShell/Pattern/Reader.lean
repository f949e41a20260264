import PipeShell.Number.Decimal
import PipeShell.Pattern.Basic
import PipeShell.Text.Layout

namespace PipeShell.Pattern

inductive Defect where
  | openGroup
  | closedTooOften
  | openSet
  | nothingToRepeat
  | repeatedTwice
  | endInGroup
  | loneBackslash
  | badEscape (text : String)
  | shortEscape (text : String)
  | octalTooLarge (text : String)
  | noBrace
  | badRange (text : String)
  | noSuchGroup (index : Nat)
  | groupStillOpen
  | leastAboveMost
  | unknownExtension (text : String)
  deriving DecidableEq, Repr

def Defect.message : Defect → String
  | .openGroup => "missing ), unterminated subpattern"
  | .closedTooOften => "unbalanced parenthesis"
  | .openSet => "unterminated character set"
  | .nothingToRepeat => "nothing to repeat"
  | .repeatedTwice => "multiple repeat"
  | .endInGroup => "unexpected end of pattern"
  | .loneBackslash => "bad escape (end of pattern)"
  | .badEscape text => "bad escape " ++ text
  | .shortEscape text => "incomplete escape " ++ text
  | .octalTooLarge text =>
      "octal escape value " ++ text ++ " outside of range 0-0o377"
  | .noBrace => "missing \x7b"
  | .badRange text => "bad character range " ++ text
  | .noSuchGroup index => "invalid group reference " ++ toString index
  | .groupStillOpen => "cannot refer to an open group"
  | .leastAboveMost => "min repeat greater than max repeat"
  | .unknownExtension text => "unknown extension ?" ++ text

inductive Refusal where
  | defect (cause : Defect) (position : Nat)
  | tooManyRepeats
  | tooLong (digits : Nat)
  deriving DecidableEq, Repr

/-- The report about a pattern. Patterns of several lines are reported by line and
column too. -/
def report (source : List Char) (cause : Defect) (position : Nat) : String :=
  let before := source.take position
  let column := (before.reverse.takeWhile (· ≠ '\n')).length + 1
  cause.message ++ " at position " ++ toString position ++
    if source.contains '\n' then
      " (line " ++ toString (before.count '\n' + 1) ++ ", column " ++
        toString column ++ ")"
    else ""

abbrev Read := Except Refusal

def fail {α : Type} (cause : Defect) (position : Nat) : Read α :=
  .error (.defect cause position)

inductive Token where
  | plain (c : Char)
  | escaped (c : Char)
  deriving DecidableEq, Repr

def Token.text : Token → String
  | .plain c => String.ofList [c]
  | .escaped c => String.ofList ['\\', c]

/-- The text from the next token on, and the position of that token. -/
structure Cursor where
  rest : List Char
  position : Nat

namespace Cursor

/-- Refuses a place where the next token would be a lone backslash. -/
def checked (cursor : Cursor) : Read Cursor :=
  if cursor.rest = ['\\'] then fail .loneBackslash cursor.position else .ok cursor

def start (source : List Char) : Read Cursor :=
  checked ⟨source, 0⟩

def token? (cursor : Cursor) : Option Token :=
  match cursor.rest with
  | [] => none
  | '\\' :: c :: _ => some (.escaped c)
  | c :: _ => some (.plain c)

def isNext (cursor : Cursor) (c : Char) : Bool :=
  cursor.token? = some (.plain c)

def skip (cursor : Cursor) : Read Cursor :=
  match cursor.rest with
  | [] => .ok cursor
  | '\\' :: _ :: rest => checked ⟨rest, cursor.position + 2⟩
  | _ :: rest => checked ⟨rest, cursor.position + 1⟩

/-- Takes plain characters that pass a test, at most as many as given. -/
def takeWhile (test : Char → Bool) :
    (most : Nat) → Cursor → Read (List Char × Cursor)
  | 0, cursor => .ok ([], cursor)
  | most + 1, cursor =>
      match cursor.token? with
      | some (.plain c) =>
          if test c then do
            let (taken, last) ← takeWhile test most (← cursor.skip)
            return (c :: taken, last)
          else .ok ([], cursor)
      | _ => .ok ([], cursor)

def accept (cursor : Cursor) (c : Char) : Read (Bool × Cursor) :=
  if cursor.isNext c then do
    return (true, ← cursor.skip)
  else .ok (false, cursor)

end Cursor

def hexValue (c : Char) : Nat :=
  if c.isDigit then c.toNat - 48 else c.toLower.toNat - 87

def isHex (c : Char) : Bool :=
  c.isDigit || ('a' ≤ c && c ≤ 'f') || ('A' ≤ c && c ≤ 'F')

def isOctal (c : Char) : Bool :=
  '0' ≤ c && c ≤ '7'

def valueIn (base : Nat) (digits : List Char) : Nat :=
  digits.foldl (fun n c => n * base + hexValue c) 0

def letterCategory? : Char → Option SetItem
  | 'd' => some (.category .digit)
  | 'D' => some (.outside .digit)
  | 's' => some (.category .space)
  | 'S' => some (.outside .space)
  | 'w' => some (.category .word)
  | 'W' => some (.outside .word)
  | _ => none

def letterAnchor? : Char → Option Anchor
  | 'A' => some .lineStart
  | 'Z' => some .textEnd
  | 'b' => some .wordEdge
  | 'B' => some .noWordEdge
  | _ => none

def letterControl? : Char → Option Nat
  | 'a' => some 7
  | 'b' => some 8
  | 'f' => some 12
  | 'n' => some 10
  | 'r' => some 13
  | 't' => some 9
  | 'v' => some 11
  | _ => none

def escapeText (c : Char) (digits : List Char) : String :=
  String.ofList ('\\' :: c :: digits)

def hexWidth? : Char → Option Nat
  | 'x' => some 2
  | 'u' => some 4
  | 'U' => some 8
  | _ => none

def maxCode : Nat := 0x10FFFF

/-- A code point in hexadecimal digits; `start` is where the escape begins. -/
def hexEscape (c : Char) (width start : Nat) (cursor : Cursor) :
    Read (Nat × Cursor) := do
  let (digits, cursor) ← cursor.takeWhile isHex width
  let code := valueIn 16 digits
  if digits.length < width then fail (.shortEscape (escapeText c digits)) start
  else if maxCode < code then fail (.badEscape (escapeText c digits)) start
  else return (code, cursor)

def octalCode (digits : List Char) (start : Nat) : Read Nat :=
  let code := valueIn 8 digits
  if 255 < code then fail (.octalTooLarge (String.ofList ('\\' :: digits))) start
  else .ok code

/-- The character that an escape stands for when it is not a letter or a digit of
another meaning. -/
def plainEscape (c : Char) (start : Nat) (cursor : Cursor) : Read (Nat × Cursor) :=
  match hexWidth? c with
  | some width => hexEscape c width start cursor
  | none =>
      if c = 'N' && !cursor.isNext '\x7b' then fail .noBrace cursor.position
      else if c.isAlpha then fail (.badEscape (escapeText c [])) start
      else .ok (c.toNat, cursor)

def setEscape (c : Char) (start : Nat) (cursor : Cursor) : Read (SetItem × Cursor) :=
  match letterControl? c, letterCategory? c with
  | some code, _ => .ok (.single code, cursor)
  | none, some item => .ok (item, cursor)
  | none, none =>
      if isOctal c then do
        let (digits, cursor) ← cursor.takeWhile isOctal 2
        return (.single (← octalCode (c :: digits) start), cursor)
      else if c.isDigit then fail (.badEscape (escapeText c [])) start
      else do
        let (code, cursor) ← plainEscape c start cursor
        return (.single code, cursor)

def SetItem.code? : SetItem → Option Nat
  | .range first last => if first = last then some first else none
  | _ => none

/-- One member of a set, from a token that has been taken. -/
def setMember (token : Token) (start : Nat) (cursor : Cursor) :
    Read (SetItem × Cursor) :=
  match token with
  | .plain c => .ok (.single c.toNat, cursor)
  | .escaped c => setEscape c start cursor

def rangeBetween (first last : Token) (from_ to_ : SetItem) (cursor : Cursor) :
    Read SetItem :=
  let text := first.text ++ "-" ++ last.text
  let start := cursor.position - text.length
  match from_.code?, to_.code? with
  | some low, some high => if high < low then fail (.badRange text) start
        else .ok (.range low high)
  | _, _ => fail (.badRange text) start

/-- The members of a set up to its end; `opened` is where the set begins. -/
def setItems (opened : Nat) :
    (fuel : Nat) → (items : List SetItem) → Cursor → Read (List SetItem × Cursor)
  | 0, _, _ => fail .openSet opened
  | fuel + 1, items, cursor =>
      match cursor.token? with
      | none => fail .openSet opened
      | some token => do
          let start := cursor.position
          let cursor ← cursor.skip
          if token = .plain ']' && !items.isEmpty then return (items.reverse, cursor)
          let (item, cursor) ← setMember token start cursor
          let (isRange, cursor) ← cursor.accept '-'
          if !isRange then setItems opened fuel (item :: items) cursor
          else
            match cursor.token? with
            | none => fail .openSet opened
            | some last => do
                let lastStart := cursor.position
                let cursor ← cursor.skip
                if last = .plain ']' then
                  return ((SetItem.single '-'.toNat :: item :: items).reverse,
                    cursor)
                let (lastItem, cursor) ← setMember last lastStart cursor
                let range ← rangeBetween token last item lastItem cursor
                setItems opened fuel (range :: items) cursor

def set (opened : Nat) (cursor : Cursor) : Read (Node × Cursor) := do
  let (negated, cursor) ← cursor.accept '^'
  let (items, cursor) ← setItems opened (cursor.rest.length + 1) [] cursor
  return (if negated then .noneOf items else .oneOf items, cursor)

inductive Repeatable where
  | yes
  | place
  | already
  deriving DecidableEq, Repr

structure Piece where
  node : Node
  repeatable : Repeatable

inductive GroupKind where
  | numbered (index : Nat)
  | plain
  | ahead
  | notAhead
  deriving DecidableEq, Repr

def GroupKind.node : GroupKind → Node → Node
  | .numbered index, body => .group index body
  | .plain, body => body
  | .ahead, body => .ahead body
  | .notAhead, body => .notAhead body

/-- The branches of a group as far as they have been read, last first. -/
structure Branches where
  done : List Node
  pieces : List Piece

def Branches.empty : Branches := ⟨[], []⟩

def Branches.current (branches : Branches) : Node :=
  .sequence (branches.pieces.reverse.map Piece.node)

def Branches.node (branches : Branches) : Node :=
  .choice ((branches.current :: branches.done).reverse)

def Branches.next (branches : Branches) : Branches :=
  ⟨branches.current :: branches.done, []⟩

def Branches.add (branches : Branches) (piece : Piece) : Branches :=
  { branches with pieces := piece :: branches.pieces }

/-- A group that has not been closed, and the branches around it. -/
structure Opening where
  kind : GroupKind
  start : Nat
  outer : Branches

structure State where
  nextGroup : Nat
  closed : List Nat
  openings : List Opening
  branches : Branches

def State.start : State := ⟨1, [], [], .empty⟩

def State.add (state : State) (piece : Piece) : State :=
  { state with branches := state.branches.add piece }

def State.addNode (state : State) (node : Node) : State :=
  state.add ⟨node, .yes⟩

def State.openGroup (state : State) (kind : GroupKind) (start : Nat) : State :=
  { state with
    openings := ⟨kind, start, state.branches⟩ :: state.openings
    branches := .empty }

def State.close (state : State) (opening : Opening) (openings : List Opening) :
    State :=
  let closed :=
    match opening.kind with
    | .numbered index => index :: state.closed
    | _ => state.closed
  { state with
    closed
    openings
    branches := opening.outer.add ⟨opening.kind.node state.branches.node, .yes⟩ }

def groupStart (state : State) (start : Nat) (cursor : Cursor) :
    Read (State × Cursor) := do
  let (extended, cursor) ← cursor.accept '?'
  if !extended then
    let opened := state.openGroup (.numbered state.nextGroup) start
    return ({ opened with nextGroup := state.nextGroup + 1 }, cursor)
  match cursor.token? with
  | none => fail .endInGroup cursor.position
  | some token => do
      let cursor ← cursor.skip
      match token with
      | .plain ':' => return (state.openGroup .plain start, cursor)
      | .plain '=' => return (state.openGroup .ahead start, cursor)
      | .plain '!' => return (state.openGroup .notAhead start, cursor)
      | token =>
          fail (.unknownExtension token.text)
            (cursor.position - (token.text.length + 1))

def reference (state : State) (digits : List Char) (start : Nat) : Read Piece :=
  let index := Number.natOfDigits digits
  if state.nextGroup ≤ index then fail (.noSuchGroup index) (start + 1)
  else if !state.closed.contains index then fail .groupStillOpen start
  else .ok ⟨.again index, .yes⟩

def code (n : Nat) : Piece := ⟨.oneOf [.single n], .yes⟩

/-- A number: an octal code if it has three octal digits, and else the number of a
group. -/
def numberEscape (state : State) (c : Char) (start : Nat) (cursor : Cursor) :
    Read (Piece × Cursor) := do
  let (second, cursor) ← cursor.takeWhile Char.isDigit 1
  let (third, after) ←
    if isOctal c && second.any isOctal then cursor.takeWhile isOctal 1
      else .ok ([], cursor)
  if third.isEmpty then
    return (← reference state (c :: second) start, cursor)
  else
    return (code (← octalCode (c :: second ++ third) start), after)

def escape (state : State) (c : Char) (start : Nat) (cursor : Cursor) :
    Read (Piece × Cursor) :=
  match letterAnchor? c, letterCategory? c, letterControl? c with
  | some anchor, _, _ => .ok (⟨.anchor anchor, .place⟩, cursor)
  | none, some item, _ => .ok (⟨.oneOf [item], .yes⟩, cursor)
  | none, none, some n => .ok (code n, cursor)
  | none, none, none =>
      if c = '0' then do
        let (digits, cursor) ← cursor.takeWhile isOctal 2
        return (code (valueIn 8 digits), cursor)
      else if c.isDigit then numberEscape state c start cursor
      else do
        let (n, cursor) ← plainEscape c start cursor
        return (code n, cursor)

def repeatLimit : Nat := 4294967295

def repeatCount (digits : List Char) : Read Nat :=
  if Number.maxDigits < digits.length then .error (.tooLong digits.length)
  else
    let n := Number.natOfDigits digits
    if repeatLimit ≤ n then .error .tooManyRepeats else .ok n

/-- The numbers between braces, unless the brace stands for itself. -/
def bracedCounts (cursor : Cursor) :
    Read (Option ((Nat × Option Nat) × Cursor)) := do
  if cursor.isNext '\x7d' then return none
  let start := cursor.position
  let (low, cursor) ← cursor.takeWhile Char.isDigit cursor.rest.length
  let (comma, cursor) ← cursor.accept ','
  let (high, cursor) ←
    if comma then cursor.takeWhile Char.isDigit cursor.rest.length
      else .ok (low, cursor)
  let (closed, cursor) ← cursor.accept '\x7d'
  if !closed then return none
  let least ← if low.isEmpty then .ok 0 else repeatCount low
  if high.isEmpty then return some ((least, none), cursor)
  let most ← repeatCount high
  if most < least then fail .leastAboveMost start
  return some ((least, some most), cursor)

/-- The numbers of a repetition whose first token has been taken. -/
def counts (c : Char) (cursor : Cursor) :
    Read (Option ((Nat × Option Nat) × Cursor)) :=
  match c with
  | '?' => .ok (some ((0, some 1), cursor))
  | '*' => .ok (some ((0, none), cursor))
  | '+' => .ok (some ((1, none), cursor))
  | _ => bracedCounts cursor

def greed (cursor : Cursor) : Read (Greed × Cursor) := do
  let (least, cursor) ← cursor.accept '?'
  if least then return (.least, cursor)
  let (all, cursor) ← cursor.accept '+'
  return (if all then .all else .most, cursor)

/-- Repeats the piece before; `start` is where the repetition begins. -/
def repetition (state : State) (c : Char) (start : Nat) (cursor : Cursor) :
    Read (State × Cursor) := do
  match ← counts c cursor with
  | none => return (state.add (code c.toNat), cursor)
  | some ((least, most), cursor) =>
      match state.branches.pieces with
      | [] => fail .nothingToRepeat start
      | piece :: pieces =>
          match piece.repeatable with
          | .place => fail .nothingToRepeat start
          | .already => fail .repeatedTwice start
          | .yes => do
              let (greed, cursor) ← greed cursor
              let node := Node.repeated least most greed piece.node
              return ({ state with
                branches := { state.branches with pieces := ⟨node, .already⟩ ::
                  pieces } }, cursor)

/-- One token that is neither a bar nor a closing parenthesis, taken from `start`. -/
def element (state : State) (token : Token) (start : Nat) (cursor : Cursor) :
    Read (State × Cursor) :=
  match token with
  | .escaped c => do
      let (piece, cursor) ← escape state c start cursor
      return (state.add piece, cursor)
  | .plain c =>
      match c with
      | '[' => do
          let (node, cursor) ← set start cursor
          return (state.addNode node, cursor)
      | '(' => groupStart state start cursor
      | '.' => .ok (state.addNode .any, cursor)
      | '^' => .ok (state.add ⟨.anchor .lineStart, .place⟩, cursor)
      | '$' => .ok (state.add ⟨.anchor .lineEnd, .place⟩, cursor)
      | '?' => repetition state c start cursor
      | '*' => repetition state c start cursor
      | '+' => repetition state c start cursor
      | '\x7b' => repetition state c start cursor
      | c => .ok (state.add (code c.toNat), cursor)

/-- Reads on to the end of the pattern. Every step takes a token. -/
def finish : (fuel : Nat) → State → Cursor → Read Node
  | 0, state, _ => .ok state.branches.node
  | fuel + 1, state, cursor =>
      match cursor.token? with
      | none =>
          match state.openings with
          | [] => .ok state.branches.node
          | opening :: _ => fail .openGroup opening.start
      | some (.plain '|') => do
          finish fuel { state with branches := state.branches.next } (← cursor.skip)
      | some (.plain ')') =>
          match state.openings with
          | [] => fail .closedTooOften cursor.position
          | opening :: openings => do
              finish fuel (state.close opening openings) (← cursor.skip)
      | some token => do
          let (state, rest) ← element state token cursor.position (← cursor.skip)
          finish fuel state rest

def read (source : String) : Read Node := do
  finish (source.length + 1) .start (← Cursor.start source.toList)

end PipeShell.Pattern
