import PipeShell.CommandLine

namespace PipeShell.Program

def display (machine : Machine) : IO Machine := do
  let (machine, out, err) := machine.takeShown
  IO.print out
  (← IO.getStdout).flush
  IO.eprint err
  return machine

/-- Reads the files that are named, as far as they can be read. -/
def gather (paths : List String) : IO FileTree :=
  paths.foldlM (fun (tree : FileTree) (path : String) => do
    try
      let bytes ← IO.FS.readBinFile path
      return tree.plant (Path.absolute path) (.file bytes.toList)
    catch _ => return tree) FileTree.empty

/-- Prompts and runs lines until the user leaves or the input ends. -/
partial def converse (last : ExitCode) (terminal : Terminal) : IO ExitCode := do
  IO.print terminal.prompt
  (← IO.getStdout).flush
  let typed ← (← IO.getStdin).getLine
  if typed = "" then
    IO.println ""
    return last
  let line := if typed.endsWith "\n" then String.ofList typed.toList.dropLast
    else typed
  if Repl.leaves line then return last
  let now ← IO.monoMsNow
  let (code, terminal) :=
    Repl.runTyped
      { terminal with machine := { terminal.machine with clock := now } } line
  converse code { terminal with machine := ← display terminal.machine }

def finish : Except Fault ExitCode → IO UInt32
  | .ok code => return UInt32.ofNat code.number
  | .error fault => do
      IO.eprintln fault.report
      return 1

end PipeShell.Program

open PipeShell in
def main (arguments : List String) : IO UInt32 := do
  let files ← Program.gather arguments
  let home := (← IO.getEnv "HOME").getD "/"
  let machine := Machine.new (files.plant home .directory) home (← IO.monoMsNow)
    (← (← IO.getStderr).isTty)
  match CommandLine.plan machine arguments with
  | .finished result machine =>
      let _ ← Program.display machine
      Program.finish result
  | .session terminal =>
      let shown ← Program.display (terminal.machine.print Repl.greeting)
      Program.finish (.ok (← Program.converse .success
        { terminal with machine := shown }))
