import PipeShell.Config
import PipeShell.Registry

namespace PipeShell

namespace Completion

inductive Target where
  | commandName
  | optionName
  | path
  | argument
  deriving DecidableEq, Repr

def Target.name : Target → String
  | .commandName => "COMMAND_NAME"
  | .optionName => "OPTION_NAME"
  | .path => "PATH"
  | .argument => "ARGUMENT"

structure Candidate where
  text : String
  display : String
  target : Target
  deriving DecidableEq, Repr

structure Analysis where
  target : Target
  command : Option String
  wordIndex : Nat
  deriving DecidableEq, Repr

end Completion

structure Completion where
  candidates : List Completion.Candidate
  start : Nat
  length : Nat

namespace Completion

structure Scope where
  registry : Registry
  files : FileTree
  directory : String
  home : String
  showHidden : Json
  maxCandidates : Json

def required (registry : Option Registry) (directory home : Option String) :
    Except Fault (Registry × String × String) :=
  match registry, directory, home with
  | none, _, _ => .error (.badValue "registry is required")
  | some registry, some directory, some home => .ok (registry, directory, home)
  | _, _, _ => .error (.badValue "working_directory and home_directory are required")

/-- The line up to the last space, and the word after it. -/
def splitLine (line : List Char) : List Char × List Char :=
  let word := (line.reverse.takeWhile (· ≠ ' ')).reverse
  (line.take (line.length - word.length), word)

def redirectionSymbols : List String := ["<", ">", ">>"]

def afterLastBar (words : List String) : List String :=
  (words.reverse.takeWhile (· ≠ "|")).reverse

def analyze (before word : String) : Analysis :=
  let words := afterLastBar (Text.words before)
  match words with
  | [] => ⟨.commandName, none, 0⟩
  | command :: _ =>
      if (words.getLast?.map redirectionSymbols.contains).getD false then
        ⟨.path, some command, 0⟩
      else if Text.startsWith word "-" then ⟨.optionName, some command, 0⟩
      else ⟨.argument, some command, words.length⟩

def sortByText (candidates : List Candidate) : List Candidate :=
  candidates.mergeSort fun a b => Text.lower a.text ≤ Text.lower b.text

def commandCandidates (registry : Registry) (word : String) : List Candidate :=
  sortByText <| registry.commands.filterMap fun (_, schema) =>
    if Text.startsWithIgnoringCase schema.name word then
      some ⟨schema.name, schema.name ++ " - " ++ schema.description, .commandName⟩
    else none

def optionForms (option : OptionSchema) : List Candidate :=
  let long := "--" ++ option.long
  ⟨long, long ++ " - " ++ option.description, .optionName⟩ ::
    match option.short with
    | none => []
    | some c =>
        let short := "-" ++ String.ofList [c]
        [⟨short, short ++ " (" ++ long ++ ") - " ++ option.description, .optionName⟩]

def optionCandidates (schema : Option CommandSchema) (word : String) :
    List Candidate :=
  match schema with
  | none => []
  | some schema =>
      sortByText <| (schema.options.flatMap optionForms).filter fun candidate =>
        Text.startsWithIgnoringCase candidate.text word

def subsystem : String := "completion"

def suggestions (scope : Scope) (command : Instance) (line word : String)
    (index : Nat) :
    Except Fault (List String) :=
  match Table.get? Instance.hookSlot command.values, command.hook with
  | some value, _ => .error (.notCallable value.typeName)
  | none, .texts candidates => .ok candidates
  | none, .raises fault => .error fault
  | none, .echo =>
      .ok [Text.join "#" [word, toString index, scope.directory, scope.home, line]]
  | none, .commandNames =>
      if index ≠ 1 then .ok []
      else
        .ok ((Registry.sortedByName
          (scope.registry.commands.map (·.2))).map (·.name))

/-- Candidates from the command itself. A hook that fails offers nothing. -/
def argumentCandidates (scope : Scope) (line word : String) (analysis : Analysis) :
    List Journal.Note × Except Fault (List Candidate) :=
  match analysis.command.bind scope.registry.lookup with
  | none => ([], .ok [])
  | some schema =>
      let offered := do
        let command ← schema.newInstance
        suggestions scope command line word analysis.wordIndex
      match offered with
      | .ok texts =>
          ([], .ok ((texts.filter (Text.startsWithIgnoringCase · word)).map
            fun text =>
            ⟨text, text, .argument⟩))
      | .error (.cancelled message) => ([], .error (.cancelled message))
      | .error fault =>
          ([.warning subsystem ("Completion hook failed: " ++ schema.name)
            [("error", .text fault.message)]], .ok [])

/-- A word cut after its last slash: the directory as typed, and the beginning of a
name. -/
def splitPath (word : String) : String × String :=
  let typed := if word = "~" then "~/" else word
  let chars := typed.toList
  let name := (chars.reverse.takeWhile (· ≠ '/')).reverse
  (String.ofList (chars.take (chars.length - name.length)), String.ofList name)

def baseDirectory (scope : Scope) (typed : String) : String :=
  if typed = "" then scope.directory
    else Path.resolve typed scope.directory scope.home

/-- The entries of a directory that a beginning fits, directories first. -/
def pathCandidatesIn (scope : Scope) (typed start : String)
    (entries : List (String × Bool)) :
    List Candidate :=
  let showHidden := scope.showHidden.truthy || Text.startsWith start "."
  let fitting := entries.filter fun (name, _) =>
    Text.startsWithIgnoringCase name start &&
      (showHidden || !Text.startsWith name ".")
  let sorted := fitting.mergeSort fun a b => Text.lower a.1 ≤ Text.lower b.1
  let directories := sorted.filter (·.2)
  let plain := sorted.filter (!·.2)
  directories.map (fun (name, _) => ⟨typed ++ name ++ "/", name ++ "/", .path⟩) ++
    plain.map (fun (name, _) => ⟨typed ++ name, name, .path⟩)

/-- Candidates from the files. A directory that cannot be listed offers nothing. -/
def pathCandidates (scope : Scope) (word : String) :
    List Journal.Note × Except Fault (List Candidate) :=
  let (typed, start) := splitPath word
  let base := baseDirectory scope typed
  if FileTree.hasZero base then ([], .error .zeroInPath)
  else
    match scope.files.list base with
    | .error fault =>
        ([.debug subsystem "Path completion skipped"
          [("path", .text base), ("error", .text fault.message)]], .ok [])
    | .ok entries => ([], .ok (pathCandidatesIn scope typed start entries))

/-- How many candidates are wanted; no number means all. -/
def limit : Json → Except Fault (Option Nat)
  | .int n => .ok (if 0 < n then some n.toNat else none)
  | .bool b => .ok (if b then some 1 else none)
  | .real x =>
      if x.isNaN || x.isNegative || x.isZero then .ok none
      else .error (.mistyped "a whole number is expected")
  | _ => .error (.mistyped "a number is expected")

def allCandidates (scope : Scope) (line word : String) (analysis : Analysis) :
    List Journal.Note × Except Fault (List Candidate) :=
  match analysis.target with
  | .commandName => ([], .ok (commandCandidates scope.registry word))
  | .optionName =>
      ([], .ok (optionCandidates (analysis.command.bind scope.registry.lookup) word))
  | .path => pathCandidates scope word
  | .argument =>
      match argumentCandidates scope line word analysis with
      | (notes, .ok []) =>
          let (more, result) := pathCandidates scope word
          (notes ++ more, result)
      | other => other

def complete (scope : Scope) (line : String) :
    List Journal.Note × Except Fault Completion :=
  let (before, wordChars) := splitLine line.toList
  let word := String.ofList wordChars
  let (notes, candidates) :=
    allCandidates scope line word (analyze (String.ofList before) word)
  (notes, do
    let candidates ← candidates
    let chosen :=
      match ← limit scope.maxCandidates with
      | some count => candidates.take count
      | none => candidates
    return ⟨chosen, before.length, wordChars.length⟩)

end Completion

end PipeShell
