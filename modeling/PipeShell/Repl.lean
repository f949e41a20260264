import PipeShell.Terminal

namespace PipeShell

namespace Repl

inductive Keys where
  | line (text : String)
  | interrupt
  deriving DecidableEq, Repr

def printed (terminal : Terminal) (text : String) : Terminal :=
  { terminal with machine := terminal.machine.print text }

def greeting : String := "uniterm - type 'help' for a list of commands.\n\n"

def leaves (line : String) : Bool :=
  Text.strip line = "exit" || Text.strip line = "quit"

/-- Runs a line; one that is cancelled is reported, and one that breaks off fails. -/
def runTyped (terminal : Terminal) (line : String) : ExitCode × Terminal :=
  match terminal.runLine .empty false line with
  | (.ok code, terminal) => (code, terminal)
  | (.error (.cancelled _), terminal) =>
      (.runtimeError, { terminal with
        machine := terminal.machine.printError "cancelled\n" })
  | (.error _, terminal) => (.runtimeError, terminal)

/-- Prompts until the user leaves or the input ends, and gives the code of the last
line. -/
def loop (last : ExitCode) (terminal : Terminal) : List Keys → ExitCode × Terminal
  | [] => (last, printed terminal (terminal.prompt ++ "\n"))
  | .interrupt :: rest =>
      loop last (printed terminal (terminal.prompt ++ "^C\n")) rest
  | .line text :: rest =>
      let prompted := printed terminal terminal.prompt
      if leaves text then (last, prompted)
      else
        let (code, terminal) := runTyped prompted text
        loop code terminal rest

def run (terminal : Terminal) (keys : List Keys) : ExitCode × Terminal :=
  loop .success (printed terminal greeting) keys

end Repl

end PipeShell
