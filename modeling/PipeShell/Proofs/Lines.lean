import PipeShell.Proofs.Postconditions
import PipeShell.Terminal

namespace PipeShell

open Channel (Source)

variable {σ α : Type}

def Session.noted (session : Session σ) (notes : List Journal.Note) : Session σ :=
  { session with machine := session.machine.noteAll notes }

theorem Session.noted_append (session : Session σ)
    (first second : List Journal.Note) :
    session.noted (first ++ second) = (session.noted first).noted second := by
  simp only [noted, Machine.noteAll, List.foldl_append]

namespace Act.Ended

variable {β : Type} {post : α → Session σ → Prop} {faulty raised : Fault →
  Session σ → Prop}
  {result : Except Fault α × Session σ}

theorem andThen (hended : Ended post faulty result) {next : α → Act σ β}
    {last : β → Session σ → Prop}
    (hnext : ∀ value, Ensures (post value) (next value) last faulty) :
    Ended last faulty (Act.andThen next result) := by
  rcases result with ⟨fault | value, after⟩
  · exact hended
  · exact (hnext value).ended after hended

theorem orElse (hended : Ended post raised result) {handle : Fault → Act σ α}
    (hhandle : ∀ fault, Ensures (raised fault) (handle fault) post faulty) :
    Ended post faulty (Act.orElse handle result) := by
  rcases result with ⟨fault | value, after⟩
  · exact (hhandle fault).ended after hended
  · exact hended

theorem after {inv : Session σ → Prop}
    (hended : Ended (fun _ => inv) (fun fault after => inv after ∧
      faulty fault after) result) :
    inv result.2 := by
  rcases result with ⟨fault | value, after⟩
  · exact hended.1
  · exact hended

end Act.Ended

namespace Execution

open Act

def readingNotes (text : String) : List Journal.Note :=
  if text = "" then []
  else
    match Token.tokenize text with
    | .error _ => []
    | .ok tokens =>
        match Pipeline.parseTokens tokens with
        | .ok (some pipeline) => [tokenizedNote tokens, parsedNote pipeline]
        | _ => [tokenizedNote tokens]

def refusal (error : ParseError) : Fault := .failure error.toFailure

theorem outcome_parse (text : String) (session : Session σ) :
    outcome (parse text) session =
      ((Pipeline.parse text).mapError refusal,
        session.noted (readingNotes text)) := by
  unfold parse readingNotes Pipeline.parse
  by_cases hempty : text = ""
  · subst hempty
    rfl
  · rw [if_neg hempty, if_neg hempty]
    cases Token.tokenize text with
    | error error => rfl
    | ok tokens =>
        dsimp only
        rw [outcome_bind]
        rcases Pipeline.parseTokens tokens with error | _ | pipeline <;> rfl

variable (owner : Owner σ) (body : Body σ) {parsers : Parsers} (home : String)
  (input : Source)
  {text : String} (session : Session σ)

theorem outcome_interpretWith_of_parse_error {error : ParseError}
    (hparse : Pipeline.parse text = .error error) :
    outcome (interpretWith owner body parsers home input text) session =
      (.error (refusal error), session.noted (readingNotes text)) := by
  unfold interpretWith
  rw [outcome_bind, outcome_parse, hparse]
  rfl

/-- Every command of a line is bound before the first stage starts. -/
theorem outcome_interpretWith_of_parse {pipeline : Pipeline}
    {notes : List Journal.Note} {bound : Except Fault BoundPipeline}
    (hparse : Pipeline.parse text = .ok (some pipeline))
    (hbind : session.registry.bind parsers pipeline = (notes, bound)) :
    outcome (interpretWith owner body parsers home input text) session =
      andThen (execute owner body home input)
        (bound, session.noted (readingNotes text ++ notes)) := by
  unfold interpretWith
  rw [outcome_bind, outcome_parse, hparse, Session.noted_append]
  change outcome (do
      onMachine fun machine =>
        machine.noteAll (session.registry.bind parsers pipeline).1
      execute owner body home input
        (← lift (session.registry.bind parsers pipeline).2))
    (session.noted (readingNotes text)) = _
  rw [hbind, outcome_bind]
  change outcome (lift bound >>= execute owner body home input)
    ((session.noted (readingNotes text)).noted notes) = _
  rw [outcome_bind, outcome_lift]

variable {session} {bound : BoundCommand}

theorem outcome_note (note : Journal.Note) :
    outcome (Act.note note) session = (.ok (), session.noted [note]) := rfl

theorem outcome_report (line : String) (code : ExitCode) :
    outcome (do reportLine line; return code) session =
      match session.err.writeLine session.machine line with
      | .ok (err, machine) => (.ok code, { session with err, machine })
      | .error fault => (.error fault, session) := by
  rw [outcome_bind, outcome_reportLine]
  cases session.err.writeLine session.machine line <;> rfl

theorem outcome_errorLine_of_live (hlive : session.cancelled = false) (line : String)
    (code : ExitCode) :
    outcome (do errorLine line; return code) session =
      outcome (do reportLine line; return code) session := by
  rw [outcome_bind, errorLine, outcome_bind, outcome_check_of_live hlive,
    outcome_bind]
  rfl

theorem outcome_resolve (path : String) :
    outcome (resolve home path) session =
      (.ok (Path.resolve path session.directory home), session) := rfl

theorem outcome_stageInput (bound : BoundCommand) (current : Source) :
    outcome (stageInput home bound 0 current) session =
      (.ok (match bound.redirections.stdin with
        | none => .ok current
        | some path =>
            if session.machine.files.isFile
              (Path.resolve path session.directory home) then
              .ok (.file (Path.resolve path session.directory home))
            else .error (Path.resolve path session.directory home)), session) := by
  unfold stageInput
  cases bound.redirections.stdin with
  | none => rfl
  | some path =>
      dsimp only
      rw [if_neg (by simp), outcome_bind, outcome_resolve]
      dsimp only [andThen]
      rw [outcome_bind, outcome_files]
      dsimp only [andThen]
      split <;> rfl

theorem outcome_execute_of_input_missing (hlive : session.cancelled = false)
    {path : String} (hinput : bound.redirections.stdin = some path)
    (hmissing : session.machine.files.isFile
      (Path.resolve path session.directory home) = false)
    (rest : BoundPipeline) :
    outcome (execute owner body home input (bound :: rest)) session =
      outcome (do
        reportLine ("File not found: " ++ Path.resolve path session.directory home)
        return .runtimeError) session := by
  rw [← outcome_errorLine_of_live hlive, execute, runStages, outcome_bind,
    outcome_check_of_live hlive]
  dsimp only [andThen]
  rw [outcome_bind, outcome_stageInput, hinput]
  simp only [hmissing]
  rfl

theorem outcome_execute_of_output_refused (hlive : session.cancelled = false)
    (hinput : ∀ path, bound.redirections.stdin = some path →
      session.machine.files.isFile (Path.resolve path session.directory home) = true)
    {output : Output} (houtput : bound.redirections.stdout = some output)
    {cause : Failure} (hrefused : session.machine.openOutput
      (Path.resolve output.path session.directory home) output.append =
        .error (.failure cause)) :
    outcome (execute owner body home input [bound]) session =
      outcome (do
        reportLine (bound.schema.name ++ ": " ++ cause.message)
        return cause.exitCode) session := by
  have hopened : outcome (stageOutput home bound true) session =
      (.ok (.error cause), session) := by
    unfold stageOutput
    rw [houtput]
    dsimp only
    rw [openFile, outcome_bind, outcome_resolve]
    dsimp only [andThen]
    rw [outcome_bind, outcome_session]
    dsimp only [andThen]
    rw [hrefused]
    rfl
  rw [← outcome_errorLine_of_live hlive, execute, runStages, outcome_bind,
    outcome_check_of_live hlive]
  dsimp only [andThen]
  rw [outcome_bind, outcome_stageInput]
  cases hstdin : bound.redirections.stdin with
  | none =>
      dsimp only [andThen]
      rw [outcome_bind, List.isEmpty_nil, hopened]
      rfl
  | some path =>
      simp only [hinput path hstdin, if_true, andThen]
      rw [outcome_bind, List.isEmpty_nil, hopened]
      rfl

theorem outcome_execute_single (hlive : session.cancelled = false)
    (hplain : bound.redirections = ⟨none, none⟩) :
    outcome (execute owner body home input [bound]) session =
      andThen (fun code => proceed 0 bound (fun _ => return .success) (code, input))
        (outcome (runCommand owner body home bound input)
          (session.noted [runningNote 0 bound])) := by
  have hopened : outcome (stageOutput home bound true) session =
      (.ok (.ok .own), session) := by
    unfold stageOutput
    rw [hplain]
    rfl
  rw [execute, runStages, outcome_bind, outcome_check_of_live hlive]
  dsimp only [andThen]
  rw [outcome_bind, outcome_stageInput, hplain]
  dsimp only [andThen]
  rw [outcome_bind, List.isEmpty_nil, hopened]
  dsimp only [andThen]
  change outcome (do
      note (runningNote 0 bound)
      let ended ← onStage .own input (runCommand owner body home bound input)
      proceed 0 bound (runStages owner body home 1 · []) ended) session = _
  rw [outcome_bind, outcome_note]
  dsimp only [andThen]
  rw [outcome_bind, onStage, outcome_bind]
  rcases outcome (runCommand owner body home bound input)
    (session.noted [runningNote 0 bound])
    with ⟨fault | code, after⟩
  · rfl
  · rfl

theorem outcome_runCommand_builtin {builtin : Builtin}
    (hprogram : bound.command.program = .builtin builtin)
    (hshown : Table.get? Instance.programSlot bound.command.values = none) :
    outcome (runCommand owner (commands owner) home bound input) session =
      orElse (recover bound)
        (outcome (builtin.run owner
          ⟨input, bound.arguments, session.directory, home, session.previous,
            owner.history session.owner, true⟩ bound.command) session) := by
  have hrun (context : Context) : bound.command.run owner context =
      builtin.run owner context bound.command >>= fun code =>
        pure (Status.code code) := by
    rw [Instance.run, hprogram, hshown]
  rw [runCommand, outcome_bind]
  change outcome (tryCatch (bound.command.run owner _ >>= fun status =>
    lift status.exitCode) (recover bound)) session = _
  rw [hrun, outcome_tryCatch, outcome_bind, outcome_bind]
  rcases outcome (builtin.run owner _ bound.command) session with
    ⟨fault | code, after⟩
  · rfl
  · rfl

theorem outcome_interpretWith_single {invocation : Invocation}
    {bindingNote : Journal.Note} (hlive : session.cancelled = false)
    (hparse : Pipeline.parse text = .ok (some [invocation]))
    (hbind : session.registry.bindCommand parsers invocation =
      .ok (bound, bindingNote)) (hplain : bound.redirections = ⟨none, none⟩) :
    ∃ notes, outcome (interpretWith owner body parsers home input text) session =
      andThen (fun code => proceed 0 bound (fun _ => return .success) (code, input))
        (outcome (runCommand owner body home bound input)
          (session.noted notes)) := by
  have hbound : session.registry.bind parsers [invocation] =
      ([bindingNote], .ok [bound]) := by
    rw [Registry.bind, hbind]
    rfl
  refine ⟨readingNotes text ++ [bindingNote] ++ [runningNote 0 bound], ?_⟩
  have hnoted : (session.noted (readingNotes text ++ [bindingNote])).cancelled =
      false := hlive
  have hrun := outcome_execute_single owner body home input hnoted hplain
  rw [← Session.noted_append] at hrun
  rw [outcome_interpretWith_of_parse owner body home input session hparse hbound]
  exact hrun

structure Unreported (inv : Session σ → Prop) : Prop where
  noted : ∀ session note, inv session → inv (session.noted [note])
  errors : Session.StableForErrors inv

theorem Unreported.notedAll {inv : Session σ → Prop} (hinv : Unreported inv)
    {session : Session σ} (hsession : inv session) (notes : List Journal.Note) :
    inv (session.noted notes) := by
  induction notes generalizing session with
  | nil => exact hsession
  | cons note rest ih => exact ih (hinv.noted session note hsession)

def anyhow (_ : Fault) (_ : Session σ) : Prop := True

section Unreported

variable {inv : Session σ → Prop} (hinv : Unreported inv)

include hinv

theorem keeps_noteOf (note : Journal.Note) : Keeps inv anyhow (Act.note note) :=
  ensures_modify fun before hbefore => hinv.noted before note hbefore

private theorem keeps_reportOf (line : String) :
    Keeps inv anyhow (reportLine line) :=
  (keeps_reportLine hinv.errors line).imp_faulty fun _ _ hafter =>
    ⟨hafter.1, trivial⟩

theorem keeps_errorOf (line : String) : Keeps inv anyhow (errorLine line) :=
  keeps_errorLine (fun _ _ _ => trivial) hinv.errors line

theorem keeps_recover (bound : BoundCommand) (fault : Fault) :
    Keeps inv anyhow (recover bound fault) := by
  unfold recover
  split
  · exact ensures_throw fun _ hbefore => ⟨hbefore, trivial⟩
  · exact ensures_throw fun _ hbefore => ⟨hbefore, trivial⟩
  · exact (keeps_noteOf hinv _).bind fun _ => (keeps_errorOf hinv _).bind fun _ =>
      keeps_pure _
  · exact (keeps_noteOf hinv _).bind fun _ => (keeps_errorOf hinv _).bind fun _ =>
      keeps_pure _

private theorem keeps_proceed_end (bound : BoundCommand)
    (ended : ExitCode × Source) :
    Keeps inv anyhow (proceed 0 bound (fun _ => return .success) ended) := by
  obtain ⟨code, next⟩ := ended
  unfold proceed
  dsimp only
  split
  · exact (keeps_noteOf hinv _).bind fun _ => keeps_pure _
  · exact keeps_pure _

theorem keeps_reportFailure (fault : Fault) :
    Keeps inv anyhow (Terminal.reportFailure fault) := by
  have hreport (note : Journal.Note) (line : String) (code : ExitCode) :
      Keeps inv anyhow (do Act.note note; reportLine line; return code) :=
    (keeps_noteOf hinv note).bind fun _ => (keeps_reportOf hinv line).bind fun _ =>
      keeps_pure code
  unfold Terminal.reportFailure
  split
  · split
    · exact hreport _ _ _
    · exact hreport _ _ _
    · exact hreport _ _ _
    · exact ensures_throw fun _ hbefore => ⟨hbefore, trivial⟩
  · exact ensures_throw fun _ hbefore => ⟨hbefore, trivial⟩

theorem ended_single {parsers : Parsers} {session : Session σ} {bound : BoundCommand}
    {invocation : Invocation} {bindingNote : Journal.Note}
    (hlive : session.cancelled = false)
    (hparse : Pipeline.parse text = .ok (some [invocation]))
    (hbind : session.registry.bindCommand parsers invocation =
      .ok (bound, bindingNote)) (hplain : bound.redirections = ⟨none, none⟩)
    (hcommand : ∀ notes, Ended (fun _ => inv) (fun fault after => inv after ∧
      anyhow fault after) (outcome (runCommand owner body home bound input)
        (session.noted notes))) :
    Ended (fun _ => inv) (fun fault after => inv after ∧ anyhow fault after)
      (orElse Terminal.reportFailure
        (outcome (interpretWith owner body parsers home input text) session)) := by
  obtain ⟨notes, houtcome⟩ :=
    outcome_interpretWith_single owner body home input hlive hparse hbind hplain
  rw [houtcome]
  apply Ended.orElse
  · apply (hcommand notes).andThen
    intro code
    exact keeps_proceed_end hinv bound (code, input)
  · intro fault
    exact (keeps_reportFailure hinv fault).imp_pre fun _ hbefore => hbefore.1

end Unreported

end Execution

namespace Terminal

open Act

variable {terminal recorded : Terminal} {text : String}

/-- What a line leaves when its session has ended. -/
def ended (terminal : Terminal) (outcome : Except Fault ExitCode × Session Memory) :
    LineResult :=
  ⟨outcome.1, terminal.absorb outcome.2, outcome.2.out, outcome.2.err⟩

theorem runOn_of_added (hblank : Text.allBlank text = false)
    (hadded : terminal.addHistory text = (.ok (), recorded)) (streams : Streams) :
    terminal.runOn streams text =
      recorded.ended (orElse reportFailure
        (outcome (Execution.interpret owner recorded.parsers recorded.home
          streams.input text) (recorded.sessionFor streams))) := by
  unfold runOn
  rw [if_neg (by simp [hblank]), hadded, ← outcome_tryCatch]
  rfl

end Terminal

end PipeShell
