import PipeShell.Proofs.Directories
import PipeShell.Proofs.JournalRecords
import PipeShell.Proofs.Lines
import PipeShell.Proofs.StageFaults

namespace PipeShell

namespace Machine

theorem quiet_noteAll (machine : Machine) (notes : List Journal.Note) :
    machine.Quiet (machine.noteAll notes) := by
  induction notes generalizing machine with
  | nil => exact .refl machine
  | cons note rest ih =>
      exact (quiet_note machine note).trans (ih (machine.note note))

theorem outputs_noteAll (machine : Machine) (notes : List Journal.Note) :
    (machine.noteAll notes).outputs = machine.outputs := by
  induction notes generalizing machine with
  | nil => rfl
  | cons note rest ih =>
      exact (ih (machine.note note)).trans (outputs_note machine note)

end Machine

namespace Terminal

open Act Execution

def resolve (terminal : Terminal) (path : String) : String :=
  Path.resolve path terminal.memory.directory terminal.home

/-- The machine once a line has been read and its commands have been bound. -/
def readyMachine (terminal : Terminal) (text : String) (notes : List Journal.Note) :
    Machine :=
  terminal.machine.noteAll (readingNotes text ++ notes)

/-- Why no command of a line runs: what is said about it, and the code that the line
ends with. -/
inductive Refused (terminal : Terminal) (streams : Streams) (text : String) :
    String → ExitCode → Prop
  | malformed {error : ParseError} (hparse : Pipeline.parse text = .error error) :
      Refused terminal streams text ("parse error: " ++ error.message) .usageError
  | unbound {pipeline : Pipeline} {notes : List Journal.Note} {message : String}
      {command : Option String} {context : Table Json}
      (hparse : Pipeline.parse text = .ok (some pipeline))
      (hbind : terminal.registry.bind terminal.parsers pipeline =
        (notes, .error (.failure (.bind message command context)))) :
      Refused terminal streams text message .usageError
  | inputMissing {pipeline : Pipeline} {notes : List Journal.Note}
      {bound : BoundCommand} {rest : BoundPipeline} {path : String}
      (hparse : Pipeline.parse text = .ok (some pipeline))
      (hbind : terminal.registry.bind terminal.parsers pipeline =
        (notes, .ok (bound :: rest)))
      (hlive : streams.cancelled = false)
      (hinput : bound.redirections.stdin = some path)
      (hmissing : (terminal.readyMachine text notes).files.isFile
        (terminal.resolve path) = false) :
          Refused terminal streams text ("File not found: " ++ terminal.resolve path)
            .runtimeError
  | outputRefused {pipeline : Pipeline} {notes : List Journal.Note}
      {bound : BoundCommand} {output : Output} {fault : FileTree.Fault}
      (hparse : Pipeline.parse text = .ok (some pipeline))
      (hbind : terminal.registry.bind terminal.parsers pipeline =
        (notes, .ok [bound]))
      (hlive : streams.cancelled = false)
      (hinput : ∀ path, bound.redirections.stdin = some path →
        (terminal.readyMachine text notes).files.isFile (terminal.resolve path) =
          true)
      (houtput : bound.redirections.stdout = some output)
      (hplain : FileTree.hasZero (terminal.resolve output.path) = false)
      (hrefused : (terminal.readyMachine text notes).files.openForWriting
        (terminal.resolve output.path) output.append = .error fault) :
      Refused terminal streams text
        (bound.schema.name ++ ": cannot open " ++
          terminal.resolve output.path ++ ": " ++ fault.message) .runtimeError

/-- The session has got notes and one error line, and the line has ended with the
code; if the line could not be written, the fault of the error stream goes to the
host. -/
def Reported (session : Session Memory) (message : String) (code : ExitCode)
    (ended : Except Fault ExitCode × Session Memory) : Prop :=
  ∃ notes, match session.err.writeLine (session.machine.noteAll notes) message with
    | .ok (err, machine) => ended = (.ok code, { session with err, machine })
    | .error fault => ∃ more, ended = (.error fault, session.noted (notes ++ more))

variable {session : Session Memory} {message : String} {code : ExitCode}

theorem reported_of_note (session : Session Memory) (notes : List Journal.Note)
    (note : Journal.Note) (message : String) (code : ExitCode) :
    Reported session message code
      (outcome (do Act.note note; reportLine message; return code)
        (session.noted notes)) := by
  refine ⟨notes ++ [note], ?_⟩
  rw [outcome_bind, outcome_note, ← Session.noted_append]
  dsimp only [andThen]
  rw [outcome_report]
  change match session.err.writeLine (session.machine.noteAll (notes ++ [note]))
    message with
    | .ok (err, machine) => _
    | .error fault => _
  cases hwritten : session.err.writeLine (session.machine.noteAll (notes ++ [note]))
    message with
  | ok written =>
      simp only [Session.noted, hwritten]
  | error fault =>
      refine ⟨[], ?_⟩
      simp only [Session.noted, hwritten, List.append_nil]

theorem reported_of_parse (error : ParseError) (notes : List Journal.Note) :
    Reported session ("parse error: " ++ error.message) .usageError
      (orElse reportFailure (.error (refusal error), session.noted notes)) := by
  have hreport : orElse reportFailure (.error (refusal error), session.noted notes) =
      outcome (do
        Act.note (.debug subsystem "Parse error"
          [("error", .text error.message), ("position", error.toFailure.subject)])
        reportLine ("parse error: " ++ error.message)
        return .usageError) (session.noted notes) := by
    unfold refusal ParseError.toFailure Failure.parse
    cases error.position?.map Int.ofNat <;> rfl
  rw [hreport]
  exact reported_of_note session notes _ _ _

private theorem reported_of_bind {command : Option String} {context : Table Json}
    (notes : List Journal.Note) :
    Reported session message .usageError
      (orElse reportFailure
        (.error (.failure (.bind message command context)), session.noted notes)) :=
  reported_of_note session notes _ message .usageError

theorem writeLine_of_refuses {writer : Channel.Writer} {machine : Machine}
    {fault : Fault} (hrefuses : writer.Refuses machine fault) (line : String) :
    writer.writeLine machine line = .error fault := by
  obtain ⟨handle, output, hhandle, houtput, hclosed, rfl⟩ := hrefuses
  cases writer with
  | file other =>
      cases hhandle
      rw [Channel.Writer.writeLine, Channel.Writer.write, Machine.writeOutput,
        houtput]
      · simp only [hclosed, if_true]
        rfl
      · rintro buffer ⟨⟩
  | _ => cases hhandle

private theorem reported_of_report (session : Session Memory)
    (notes : List Journal.Note) (message : String) (code : ExitCode) :
    Reported session message code
      (orElse reportFailure (outcome (do reportLine message; return code)
        (session.noted notes))) := by
  refine ⟨notes, ?_⟩
  rw [outcome_report]
  change match session.err.writeLine (session.machine.noteAll notes) message with
    | .ok (err, machine) => _
    | .error fault => _
  cases hwritten : session.err.writeLine (session.machine.noteAll notes) message with
  | ok written =>
      simp only [Session.noted, hwritten]
      rfl
  | error fault =>
      have hrefuses := Channel.Writer.writeLine_error hwritten
      obtain ⟨handle, output, hhandle, houtput, hclosed, rfl⟩ := hrefuses
      let warning : Journal.Note := .warning subsystem "Runtime error"
        [("error", .text ("write to closed file: " ++ output.path))]
      have hagain (line : String) :
          session.err.writeLine (session.machine.noteAll (notes ++ [warning])) line =
            .error (Machine.closedFile output.path) := by
        refine writeLine_of_refuses ⟨handle, output, hhandle, ?_, hclosed, rfl⟩ line
        rw [Machine.outputs_noteAll] at houtput ⊢
        exact houtput
      -- The fault is reported as a failure of its own, and the second line is
      -- refused like the first.
      refine ⟨[warning], ?_⟩
      simp only [Session.noted, hwritten]
      change outcome (do
          Act.note warning
          reportLine ("runtime error: " ++ ("write to closed file: " ++ output.path))
          return ExitCode.runtimeError) (session.noted notes) = _
      rw [outcome_bind, outcome_note, ← Session.noted_append]
      dsimp only [andThen]
      rw [outcome_report]
      simp only [Session.noted, hagain]

theorem addHistory_recorded {terminal recorded : Terminal} {text : String}
    (hadded : terminal.addHistory text = (.ok (), recorded)) :
    recorded = { terminal with memory := recorded.memory } ∧
      recorded.memory.whereabouts = terminal.memory.whereabouts := by
  refine ⟨?_, ?_⟩
  · unfold addHistory at hadded
    dsimp only at hadded
    split at hadded
    · cases hadded
      rfl
    · split at hadded
      · cases hadded
        rfl
      · cases hadded
  · have hwhereabouts := whereabouts_addHistory terminal text
    rw [hadded] at hwhereabouts
    exact hwhereabouts

private theorem Refused.reported {terminal : Terminal} {streams : Streams}
    {text : String} (hrefused : Refused terminal streams text message code)
    {memory : Memory} (hdirectory : memory.directory = terminal.memory.directory) :
    Reported ({ terminal with memory }.sessionFor streams) message code
      (orElse reportFailure
        (outcome (interpret owner terminal.parsers terminal.home streams.input text)
          ({ terminal with memory }.sessionFor streams))) := by
  have hresolve (notes : List Journal.Note) (path : String) :
      Path.resolve path (({ terminal with memory }.sessionFor streams).noted
        notes).directory
        terminal.home = terminal.resolve path :=
          congrArg (Path.resolve path · terminal.home) hdirectory
  cases hrefused with
  | malformed hparse =>
      rw [interpret, outcome_interpretWith_of_parse_error _ _ _ _ _ hparse]
      exact reported_of_parse _ _
  | unbound hparse hbind =>
      rw [interpret, outcome_interpretWith_of_parse _ _ _ _ _ hparse hbind]
      exact reported_of_bind _
  | inputMissing hparse hbind hlive hinput hmissing =>
      rw [interpret, outcome_interpretWith_of_parse _ _ _ _ _ hparse hbind]
      dsimp only [andThen]
      rw [outcome_execute_of_input_missing _ _ _ _ hlive hinput
        (by rw [hresolve]; exact hmissing), hresolve]
      exact reported_of_report _ _ _ _
  | outputRefused hparse hbind hlive hinput houtput hplain hrefused =>
      rename_i pipeline notes bound output fault
      have hopen : (terminal.readyMachine text notes).openOutput
          (terminal.resolve output.path)
            output.append =
              .error (.failure (.runtime
                ("cannot open " ++ terminal.resolve output.path ++ ": " ++
                  fault.message) (some (terminal.resolve output.path)) [])) := by
        rw [Machine.openOutput, if_neg (by simp [hplain]), hrefused]
        rfl
      rw [interpret, outcome_interpretWith_of_parse _ _ _ _ _ hparse hbind]
      dsimp only [andThen]
      rw [outcome_execute_of_output_refused _ _ _ _ hlive
        (fun path hpath => by rw [hresolve]; exact hinput path hpath) houtput
        (by rw [hresolve]; exact hopen)]
      simp only [Failure.runtime, String.append_assoc]
      exact reported_of_report _ _ _ _

/-- A line that is refused is recorded in the history and reported on the error
stream. Apart from that the journal may have got notes, and nothing else has
changed. -/
theorem runOn_refused {terminal recorded : Terminal} {streams : Streams}
    {text : String} (hblank : Text.allBlank text = false)
    (hadded : terminal.addHistory text = (.ok (), recorded))
    (hrefused : Refused terminal streams text message code) :
    recorded = { terminal with memory := recorded.memory } ∧
      recorded.memory.whereabouts = terminal.memory.whereabouts ∧
      ∃ notes, terminal.machine.Quiet (terminal.machine.noteAll notes) ∧
        (terminal.machine.noteAll notes).outputs = terminal.machine.outputs ∧
        match streams.err.writeLine (terminal.machine.noteAll notes) message with
        | .ok (err, machine) =>
            terminal.runOn streams text =
              ⟨.ok code, { recorded with machine }, streams.out, err⟩
        | .error fault =>
            ∃ more, terminal.runOn streams text =
              ⟨.error fault, { recorded with
                machine := terminal.machine.noteAll (notes ++ more) }, streams.out,
                  streams.err⟩ := by
  obtain ⟨hrecorded, hwhereabouts⟩ := addHistory_recorded hadded
  refine ⟨hrecorded, hwhereabouts, ?_⟩
  generalize recorded.memory = memory at hrecorded hwhereabouts
  subst hrecorded
  obtain ⟨notes, hended⟩ :=
    hrefused.reported (congrArg Whereabouts.directory hwhereabouts)
  refine ⟨notes, Machine.quiet_noteAll _ _, Machine.outputs_noteAll _ _, ?_⟩
  rw [runOn_of_added hblank hadded]
  change match streams.err.writeLine (terminal.machine.noteAll notes) message with
    | .ok (err, machine) => _
    | .error fault => _ at hended
  cases hwritten : streams.err.writeLine (terminal.machine.noteAll notes)
    message with
  | ok written =>
      rw [hwritten] at hended
      exact congrArg (ended _) hended
  | error fault =>
      rw [hwritten] at hended
      obtain ⟨more, hended⟩ := hended
      exact ⟨more, congrArg (ended _) hended⟩

/-! A line of two commands of which the second does not fit. -/

def misfit : String := "cd /a | grep x"

private theorem refused_misfit :
    ∃ message, Refused sampleTerminal sampleStreams misfit message .usageError :=
  ⟨_, .unbound rfl rfl⟩

theorem runOn_refused_misfit :
    ∃ message, ∃ recorded : Terminal, Text.allBlank misfit = false ∧
      sampleTerminal.addHistory misfit = (.ok (), recorded) ∧
      Refused sampleTerminal sampleStreams misfit message .usageError ∧
      recorded.memory.whereabouts = sampleTerminal.memory.whereabouts ∧
      ∃ notes, sampleTerminal.runOn sampleStreams misfit =
        ⟨.ok .usageError, { recorded with
          machine := sampleTerminal.machine.noteAll notes }, .text "",
            .text ("" ++ (message ++ "\n"))⟩ := by
  obtain ⟨message, hrefused⟩ := refused_misfit
  have hblank : Text.allBlank misfit = false := by decide
  obtain ⟨-, hwhereabouts, notes, -, -, hrun⟩ := runOn_refused hblank rfl hrefused
  exact ⟨message, _, hblank, rfl, hrefused, hwhereabouts, notes, hrun⟩

/-! A journal that writes to a file, and a command whose options share a slot. -/

def loggingConfig : Config :=
  (Config.default.set .logLevel (.text "DEBUG")).set .logFile (.text "/log")

def loggingTerminal : Except (Fault × Machine) Terminal :=
  Terminal.new sampleTerminal.machine loggingConfig (.text "") (.text "") .empty
    (some false)

def unclosed : String := "echo 'x"

/-- The options share a slot, but only one of them is a list. -/
def pick : CommandDeclaration :=
  { typeName := "PickCommand"
    name := .text "pick"
    description := ""
    options :=
      [ .option { long := "items", isList := true, slot := some "slot" },
        .option { long := "size", kind := some .int, slot := some "slot" } ]
    isAbstract := false
    factory := .itself
    program := .actions []
    hook := .none }

/-- A refused line can change the file of the journal, and binding can end in a fault
that is not reported. -/
theorem refused_line_is_recorded :
    (∃ terminal, loggingTerminal = .ok terminal ∧
      Refused terminal (terminal.ownStreams .empty false) unclosed
        "parse error: Unclosed single quote starting at position 5" .usageError ∧
      (terminal.runOn (terminal.ownStreams .empty false)
        unclosed).terminal.machine.files.read? "/log" ≠
        terminal.machine.files.read? "/log") ∧
      ∃ schema picking, sampleTerminal.register (.command pick) =
        .ok (schema, picking) ∧
        ∃ reason, (picking.runOn sampleStreams
          "pick --items a --size 3 --items b").result =
          .error (.absentMember reason) := by
  refine ⟨?_, ?_⟩
  · have hchanged : loggingTerminal.toOption.any (fun terminal => decide
        ((terminal.runOn (terminal.ownStreams .empty false)
          unclosed).terminal.machine.files.read? "/log" ≠
            terminal.machine.files.read? "/log")) = true := by
      decide +kernel
    cases hnew : loggingTerminal with
    | error fault =>
        rw [hnew] at hchanged
        cases hchanged
    | ok terminal =>
        rw [hnew] at hchanged
        have hparse : Pipeline.parse unclosed = .error (.unclosedSingle 5) := rfl
        exact ⟨terminal, rfl, Refused.malformed hparse, of_decide_eq_true hchanged⟩
  · exact ⟨_, _, rfl, _, rfl⟩

end Terminal

end PipeShell
