import PipeShell.Registry

namespace PipeShell

namespace Catalog

def levels : Enumeration := ⟨"LogLevel", Journal.Level.all.map Journal.Level.name⟩

def flag (long short description : String) : DeclaredOption :=
  .option { long, short := some short, kind := some .bool, description }

def int (long short : String) (default : Int) (description : String) :
    DeclaredOption :=
  .option { long, short := some short, kind := some .int, default := .int default,
            description }

def declare (typeName name description : String) (options : List DeclaredOption)
    (command : Builtin) : CommandDeclaration :=
  { typeName
    name := .text name
    description
    options
    isAbstract := false
    factory := .itself
    program := .builtin command
    hook := .none }

def echo : CommandDeclaration :=
  declare "EchoCommand" "echo" "Display a line of text"
    [flag "no-newline" "n" "Do not output the trailing newline"] .echo

def cat : CommandDeclaration :=
  declare "CatCommand" "cat" "Concatenate and display file contents" [] .cat

def grep : CommandDeclaration :=
  declare "GrepCommand" "grep" "Filter lines matching a pattern"
    [ .option
        { long := "pattern", short := some "p", required := true,
          description := "Pattern to search for" },
      flag "ignorecase" "i" "Ignore case distinctions",
      flag "invert" "v" "Select non-matching lines",
      flag "count" "c" "Only print count of matching lines" ] .grep

def head : CommandDeclaration :=
  declare "HeadCommand" "head" "Output the first part of files"
    [ int "lines" "n" 10
        "Output the first K lines (default: 10); -K drops the last K" ] .head

def tail : CommandDeclaration :=
  declare "TailCommand" "tail" "Output the last part of files"
    [int "lines" "n" 10 "Output the last K lines (default: 10)"] .tail

def pwd : CommandDeclaration :=
  declare "PwdCommand" "pwd" "Print working directory" [] .pwd

def cd : CommandDeclaration :=
  declare "CdCommand" "cd" "Change working directory" [] .cd

def history : CommandDeclaration :=
  declare "HistoryCommand" "history" "Display or manage command history"
    [ flag "clear" "c" "Clear all history",
      int "delete" "d" (-1) "Delete entry at specified position",
      int "number" "n" (-1) "Display only last N entries",
      flag "reverse" "r" "Display history in reverse order" ] .history

/-- Help, tied to the registry that it is registered in or not. -/
def help (tied : Bool) : CommandDeclaration :=
  { declare "HelpCommand" "help" "Display help for commands" [] (.help tied) with
    hook := if tied then .commandNames else .none }

def log : CommandDeclaration :=
  declare "LogCommand" "log" "Display terminal log messages"
    [ int "lines" "n" 0 "Output only the last N entries",
      .option
        { long := "level", short := some "l", kind := some .enum,
          enumeration := some levels, default :=
            .member Journal.Level.debug.name, description :=
              "Minimum level to display" },
      .option
        { long := "subsystem", short := some "s", isList := true,
          description := "Only show these subsystems" },
      flag "clear" "c" "Clear the log buffer" ] .log

def all (tied : Bool) : List CommandDeclaration :=
  [echo, cat, grep, head, tail, pwd, cd, history, help tied, log]

def isDisabled (disabled : List String) (declaration : CommandDeclaration) : Bool :=
  match declaration.name with
  | .text name => (disabled.map Text.lower).contains name
  | _ => false

end Catalog

namespace Registry

def registerBuiltins (registry : Registry) (disabled : List String) : Outcome :=
  registry.registerAll <|
    ((Catalog.all true).filter (!Catalog.isDisabled disabled ·)).map
      Registrant.command

/-- Registers the shell's own commands as members of a module. -/
def scanBuiltins (registry : Registry) (moduleName : String) : Outcome :=
  registry.scan moduleName <|
    (Catalog.all false).map fun declaration =>
      ⟨declaration.typeName, moduleName, .command declaration⟩

end Registry

end PipeShell
