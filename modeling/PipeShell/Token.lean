import PipeShell.Fault

namespace PipeShell

/-- Why a line cannot be read, with the position of the offending character where
there is one. -/
inductive ParseError where
  | tab (position : Nat)
  | escapeAtEnd (position : Nat)
  | unclosedDouble (position : Nat)
  | unclosedSingle (position : Nat)
  | pipeAfterRedirection (position : Nat)
  | emptyBeforePipe (position : Nat)
  | emptyAfterPipe
  | pathExpected (symbol : String) (position : Nat)
  | nameMissing
  | badOption (shown : String) (position : Nat)
  deriving DecidableEq, Repr

namespace ParseError

def position? : ParseError → Option Nat
  | .tab n => some n
  | .escapeAtEnd n => some n
  | .unclosedDouble n => some n
  | .unclosedSingle n => some n
  | .pipeAfterRedirection n => some n
  | .emptyBeforePipe n => some n
  | .emptyAfterPipe => none
  | .pathExpected _ n => some n
  | .nameMissing => none
  | .badOption _ n => some n

def message : ParseError → String
  | .tab n => "Tab character is not allowed in input at position " ++ toString n
  | .escapeAtEnd n => "Escape character at end of input at position " ++ toString n
  | .unclosedDouble n => "Unclosed double quote starting at position " ++ toString n
  | .unclosedSingle n => "Unclosed single quote starting at position " ++ toString n
  | .pipeAfterRedirection _ => "Cannot use pipe after stdout redirection (>)"
  | .emptyBeforePipe _ => "Empty command before pipe"
  | .emptyAfterPipe => "Empty command after pipe"
  | .pathExpected symbol _ => "Expected file path after " ++ symbol
  | .nameMissing => "Command name is missing"
  | .badOption shown _ => "Invalid option format: " ++ shown

def toFailure (error : ParseError) : Failure :=
  .parse error.message (error.position?.map Int.ofNat) []

end ParseError

namespace Token

inductive Kind where
  | word
  | pipe
  | redirectIn
  | redirectOut
  | redirectAppend
  | endOfOptions
  deriving DecidableEq, Repr

def Kind.name : Kind → String
  | .word => "WORD"
  | .pipe => "PIPE"
  | .redirectIn => "REDIRECT_IN"
  | .redirectOut => "REDIRECT_OUT"
  | .redirectAppend => "REDIRECT_APPEND"
  | .endOfOptions => "END_OF_OPTIONS"

structure Span where
  start : Nat
  length : Nat
  deriving DecidableEq, Repr

def Span.stop (span : Span) : Nat := span.start + span.length

end Token

structure Token where
  kind : Token.Kind
  value : String
  span : Token.Span
  quoted : Bool
  deriving DecidableEq, Repr

namespace Token

def describe (token : Token) : String :=
  token.kind.name ++ "(" ++ Text.quoted token.value ++ ")"

def operator (kind : Kind) (value : String) (start : Nat) : Token :=
  ⟨kind, value, ⟨start, value.length⟩, false⟩

/-- A word under way: where it started, its characters so far, last first, and
whether some of them were quoted. -/
structure Draft where
  start : Nat
  chars : List Char
  quoted : Bool

def Draft.push (draft : Draft) (c : Char) : Draft :=
  { draft with chars := c :: draft.chars }

def Draft.quote (draft : Draft) : Draft :=
  { draft with quoted := true }

/-- The word that ends before `stop`. Two dashes without quotes end the options. -/
def Draft.token (draft : Draft) (stop : Nat) : Token :=
  let value := String.ofList draft.chars.reverse
  let span : Span := ⟨draft.start, stop - draft.start⟩
  if value = "--" && !draft.quoted then ⟨.endOfOptions, value, span, false⟩
  else ⟨.word, value, span, draft.quoted⟩

def draftAt (word : Option Draft) (position : Nat) : Draft :=
  word.getD ⟨position, [], false⟩

def closing (word : Option Draft) (position : Nat) : List Token :=
  match word with
  | none => []
  | some draft => [draft.token position]

def emit (tokens : List Token) (rest : Except ParseError (List Token)) :
    Except ParseError (List Token) :=
  rest.map (tokens ++ ·)

mutual

def plain (word : Option Draft) (position : Nat) :
    List Char → Except ParseError (List Token)
  | [] => .ok (closing word position)
  | '\\' :: [] => .error (.escapeAtEnd position)
  | '\\' :: c :: rest =>
      plain (some ((draftAt word position).push c)) (position + 2) rest
  | '>' :: '>' :: rest =>
      emit (closing word position ++ [operator .redirectAppend ">>" position])
        (plain none (position + 2) rest)
  | c :: rest =>
      if c = ' ' then
        emit (closing word position) (plain none (position + 1) rest)
      else if c = '|' then
        emit (closing word position ++ [operator .pipe "|" position])
          (plain none (position + 1) rest)
      else if c = '<' then
        emit (closing word position ++ [operator .redirectIn "<" position])
          (plain none (position + 1) rest)
      else if c = '>' then
        emit (closing word position ++ [operator .redirectOut ">" position])
          (plain none (position + 1) rest)
      else if c = '"' then
        doubleQuoted (draftAt word position).quote position (position + 1) rest
      else if c = '\'' then
        singleQuoted (draftAt word position).quote position (position + 1) rest
      else
        plain (some ((draftAt word position).push c)) (position + 1) rest

/-- Reads on inside double quotes that were opened at `opened`. -/
def doubleQuoted (draft : Draft) (opened position : Nat) :
    List Char → Except ParseError (List Token)
  | [] => .error (.unclosedDouble opened)
  | '\\' :: '"' :: rest => doubleQuoted (draft.push '"') opened (position + 2) rest
  | '\\' :: '\\' :: rest => doubleQuoted (draft.push '\\') opened (position + 2) rest
  | c :: rest =>
      if c = '"' then plain (some draft) (position + 1) rest
      else doubleQuoted (draft.push c) opened (position + 1) rest

/-- Reads on inside single quotes that were opened at `opened`. -/
def singleQuoted (draft : Draft) (opened position : Nat) :
    List Char → Except ParseError (List Token)
  | [] => .error (.unclosedSingle opened)
  | c :: rest =>
      if c = '\'' then plain (some draft) (position + 1) rest
      else singleQuoted (draft.push c) opened (position + 1) rest

end

/-- The tokens of a line. A tab anywhere is an error before any other. -/
def tokenizeChars (text : List Char) : Except ParseError (List Token) :=
  match text.findIdx? (· = '\t') with
  | some position => .error (.tab position)
  | none => plain none 0 text

def tokenize (text : String) : Except ParseError (List Token) :=
  tokenizeChars text.toList

end Token

end PipeShell
