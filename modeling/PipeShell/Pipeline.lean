import PipeShell.Text.Digit
import PipeShell.Token

namespace PipeShell

structure Occurrence where
  name : String
  isLong : Bool
  value : Option String
  hasValue : Bool
  quoted : Bool
  spaced : Bool
  argumentIndex : Nat
  deriving DecidableEq, Repr

namespace Occurrence

def plain (name : String) (isLong : Bool) (argumentIndex : Nat) : Occurrence :=
  ⟨name, isLong, none, false, false, false, argumentIndex⟩

def attached (name : String) (isLong : Bool) (value : String) (quoted : Bool)
    (argumentIndex : Nat) : Occurrence :=
  ⟨name, isLong, some value, true, quoted, false, argumentIndex⟩

def withNext (name : String) (isLong : Bool) (next : Token) (argumentIndex : Nat) :
    Occurrence :=
  ⟨name, isLong, some next.value, true, next.quoted, true, argumentIndex⟩

def display (occurrence : Occurrence) : String :=
  (if occurrence.isLong then "--" else "-") ++ occurrence.name

def describe (occurrence : Occurrence) : String :=
  if occurrence.hasValue then occurrence.display ++ "=" ++ occurrence.value.getD ""
  else occurrence.display

end Occurrence

structure Output where
  path : String
  append : Bool
  deriving DecidableEq, Repr

structure Redirections where
  stdin : Option String
  stdout : Option Output
  deriving DecidableEq, Repr

structure Invocation where
  name : String
  arguments : List String
  options : List Occurrence
  redirections : Redirections
  deriving DecidableEq, Repr

abbrev Pipeline := List Invocation

namespace Pipeline

def isNumeral (c : Char) : Bool :=
  Text.isDigit c || c = '.'

def isNumberChars : List Char → Bool
  | [] => false
  | c :: rest =>
      if c = '+' || c = '-' then !rest.isEmpty && rest.all isNumeral
      else (c :: rest).all isNumeral

/-- Words that look like numbers are arguments even if they start with a dash. -/
def isNumber (text : String) : Bool :=
  isNumberChars text.toList

/-- Whether a lone option before this token takes it as its value. -/
def isOptionValue (token : Token) : Bool :=
  token.kind = .word && token.value.toList.head? ≠ some '-'

structure Draft where
  name : Option String
  arguments : List String
  options : List Occurrence
  optionsEnded : Bool
  redirections : Redirections

def Draft.empty : Draft := ⟨none, [], [], false, ⟨none, none⟩⟩

def Draft.finish (draft : Draft) : Except ParseError Invocation :=
  match draft.name with
  | none => .error .nameMissing
  | some name => .ok ⟨name, draft.arguments, draft.options, draft.redirections⟩

def Draft.addArgument (draft : Draft) (value : String) : Draft :=
  { draft with arguments := draft.arguments ++ [value] }

def Draft.addOptions (draft : Draft) (occurrences : List Occurrence) : Draft :=
  { draft with options := draft.options ++ occurrences }

def valueFrom (next : Option Token) : Option Token :=
  next.filter isOptionValue

/-- The option named by a long option word, and whether it takes the next token. -/
def longOption (token : Token) (body : List Char) (next : Option Token)
    (index : Nat) :
    Except ParseError (Occurrence × Bool) :=
  match Text.cutChars '=' body with
  | ([], some _) => .error (.badOption token.value token.span.start)
  | (name, some value) =>
      .ok (.attached (String.ofList name) true (String.ofList value) token.quoted
        index, false)
  | (name, none) =>
      match valueFrom next with
      | some taken => .ok (.withNext (String.ofList name) true taken index, true)
      | none => .ok (.plain (String.ofList name) true index, false)

def shortName (c : Char) : String :=
  String.ofList [c]

/-- Gives an attached value to the last option of a cluster. -/
def attachToLast (value : String) (quoted : Bool) (index : Nat) :
    List Char → List Occurrence
  | [] => []
  | [c] => [.attached (shortName c) false value quoted index]
  | c :: rest =>
      .plain (shortName c) false index :: attachToLast value quoted index rest

/-- The options of a cluster of short options, and whether the last takes the next
token. -/
def shortOptions (token : Token) (body : List Char) (next : Option Token)
    (index : Nat) :
    Except ParseError (List Occurrence × Bool) :=
  match Text.cutChars '=' body with
  | ([], some _) => .error (.badOption "-=" token.span.start)
  | (names, some value) =>
      .ok (attachToLast (String.ofList value) token.quoted index names, false)
  | ([name], none) =>
      match valueFrom next with
      | some taken => .ok ([.withNext (shortName name) false taken index], true)
      | none => .ok ([.plain (shortName name) false index], false)
  | (names, none) => .ok (names.map fun c => .plain (shortName c) false index, false)

inductive Shape where
  | long (body : List Char)
  | short (body : List Char)
  | argument
  deriving DecidableEq, Repr

def Shape.of (value : String) : Shape :=
  match value.toList with
  | '-' :: '-' :: body => .long body
  | '-' :: body => if body.isEmpty || isNumber value then .argument else .short body
  | _ => .argument

/-- Takes a word, and the token after it where the word is an option that takes
it. -/
def Draft.addWord (draft : Draft) (token : Token) (next : Option Token) :
    Except ParseError (Draft × Bool) :=
  match draft.name with
  | none => .ok ({ draft with name := some token.value }, false)
  | some _ =>
      if draft.optionsEnded then .ok (draft.addArgument token.value, false)
      else
        match Shape.of token.value with
        | .argument => .ok (draft.addArgument token.value, false)
        | .long body =>
            (longOption token body next draft.arguments.length).map
              fun (occurrence, taken) =>
              (draft.addOptions [occurrence], taken)
        | .short body =>
            (shortOptions token body next draft.arguments.length).map
              fun (occurrences, taken) =>
              (draft.addOptions occurrences, taken)

def Draft.endOptions (draft : Draft) : Draft :=
  { draft with optionsEnded := true }

def redirectionSymbol : Token.Kind → String
  | .redirectIn => "<"
  | .redirectAppend => ">>"
  | _ => ">"

def Draft.redirect (draft : Draft) (kind : Token.Kind) (path : String) : Draft :=
  match kind with
  | .redirectIn =>
      { draft with redirections := { draft.redirections with stdin := some path } }
  | .redirectAppend =>
      { draft with redirections :=
        { draft.redirections with stdout := some ⟨path, true⟩ } }
  | _ =>
      { draft with redirections :=
        { draft.redirections with stdout := some ⟨path, false⟩ } }

/-- Reads the tokens of one invocation from left to right. -/
def Draft.scan (draft : Draft) : List Token → Except ParseError Draft
  | [] => .ok draft
  | token :: rest =>
      match token.kind with
      | .pipe => draft.scan rest
      | .endOfOptions => draft.endOptions.scan rest
      | .word =>
          match rest with
          | [] => (draft.addWord token none).map (·.1)
          | next :: after =>
              match draft.addWord token (some next) with
              | .error error => .error error
              | .ok (draft, true) => draft.scan after
              | .ok (draft, false) => draft.scan (next :: after)
      | kind =>
          match rest with
          | [] => .error (.pathExpected (redirectionSymbol kind) token.span.start)
          | path :: after =>
              if path.kind = .word then (draft.redirect kind path.value).scan after
              else .error (.pathExpected (redirectionSymbol kind) token.span.start)

def parseInvocation (tokens : List Token) : Except ParseError Invocation :=
  match Draft.empty.scan tokens with
  | .error error => .error error
  | .ok draft => draft.finish

/-- The tokens before a pipe, with the position of the pipe. -/
structure Segment where
  tokens : List Token
  pipe : Nat
  deriving DecidableEq, Repr

/-- Cuts the tokens at the pipes: the segments that end in one, and the tokens after
the last. -/
def segments : List Token → List Segment × List Token
  | [] => ([], [])
  | token :: rest =>
      let (closed, last) := segments rest
      if token.kind = .pipe then (⟨[], token.span.start⟩ :: closed, last)
      else
        match closed with
        | [] => ([], token :: last)
        | segment :: more =>
            ({ segment with tokens := token :: segment.tokens } :: more, last)

def isOutputRedirection (token : Token) : Bool :=
  token.kind = .redirectOut || token.kind = .redirectAppend

/-- The last token, input redirections apart, redirects the output. -/
def endsInRedirection (tokens : List Token) : Bool :=
  match (tokens.filter fun token => token.kind ≠ .redirectIn).getLast? with
  | none => false
  | some token => isOutputRedirection token

/-- An invocation whose output goes into a pipe has no other place to go. -/
def parseSegment (segment : Segment) : Except ParseError Invocation :=
  if endsInRedirection segment.tokens then
    .error (.pipeAfterRedirection segment.pipe)
  else if segment.tokens.isEmpty then .error (.emptyBeforePipe segment.pipe)
  else
    match parseInvocation segment.tokens with
    | .error error => .error error
    | .ok invocation =>
        if invocation.redirections.stdout.isSome then
          .error (.pipeAfterRedirection segment.pipe)
        else .ok invocation

def parseSegments : List Segment → Except ParseError (List Invocation)
  | [] => .ok []
  | segment :: rest =>
      match parseSegment segment with
      | .error error => .error error
      | .ok invocation => (parseSegments rest).map (invocation :: ·)

/-- The pipeline of a line of tokens; a line without tokens has none. -/
def parseTokens (tokens : List Token) : Except ParseError (Option Pipeline) :=
  if tokens.isEmpty then .ok none
  else
    let (closed, last) := segments tokens
    match parseSegments closed with
    | .error error => .error error
    | .ok invocations =>
        if last.isEmpty then .error .emptyAfterPipe
        else (parseInvocation last).map fun invocation =>
          some (invocations ++ [invocation])

def parse (text : String) : Except ParseError (Option Pipeline) :=
  match Token.tokenize text with
  | .error error => .error error
  | .ok tokens => parseTokens tokens

end Pipeline

end PipeShell
