import PipeShell.Proofs.StageFaults
import PipeShell.Proofs.Tables

/-! Every line is answered. A terminal with none but the shell's own commands runs
any line to an exit code, unless the run is cancelled, its errors go to a closed
file, an output is redirected to a path with a zero character, or a command reads
what it writes. -/

namespace PipeShell

open Channel (Source Writer)

/-- The commands of a line, if it can be parsed and bound. -/
def Registry.commandsOf (registry : Registry) (parsers : Parsers) (text : String) :
    BoundPipeline :=
  match Pipeline.parse text with
  | .ok (some pipeline) => (registry.bind parsers pipeline).2.toOption.getD []
  | _ => []

namespace Execution

open Act
open Terminal (Memory Runs)

variable {origin : Session.Frame} {home : String} {input : Source} {out : Option Nat}
  {pipeline : BoundPipeline}

private theorem kind_toFailure (error : ParseError) :
    (Fault.failure error.toFailure).OfKind .parse := by
  refine ⟨_, rfl, ?_⟩
  unfold ParseError.toFailure Failure.parse
  split <;> rfl

private theorem ensures_parse (text : String) :
    Ensures (Standing origin) (parse text)
      (fun found after => Standing origin after ∧
        ∀ pipeline, found = some pipeline →
          Pipeline.parse text = .ok (some pipeline))
      fun fault after => Standing origin after ∧ fault.OfKind .parse := by
  have hnothing : Ensures (Standing origin)
      (pure none : Act Memory (Option Pipeline))
        (fun found after => Standing origin after ∧
          ∀ pipeline, found = some pipeline →
            Pipeline.parse text = .ok (some pipeline))
        (fun fault after => Standing origin after ∧ fault.OfKind .parse) := by
    refine ensures_pure fun _ hbefore => ⟨hbefore, ?_⟩
    rintro _ ⟨⟩
  unfold parse
  split
  · exact hnothing
  · split
    · exact ensures_throw fun _ hbefore => ⟨hbefore, kind_toFailure _⟩
    · next tokens htokens =>
        refine (keeps_note_standing _).andThen fun _ => ?_
        split
        · exact ensures_throw fun _ hbefore => ⟨hbefore, kind_toFailure _⟩
        · exact hnothing
        · next found hfound =>
            refine (keeps_note_standing _).andThen fun _ =>
              ensures_pure fun _ hbefore => ⟨hbefore, ?_⟩
            rintro _ ⟨⟩
            rw [Pipeline.parse, htokens]
            exact hfound

private theorem keeps_interpret (hbuiltin : origin.registry.BuiltinOnly)
    (parsers : Parsers) (home : String) (input : Source) (text : String) :
    Keeps (Standing origin)
      (Stops home input origin.out (origin.registry.commandsOf parsers text))
      (interpret Terminal.owner parsers home input text) := by
  refine ((ensures_parse text).imp_faulty fun _ _ hafter =>
    ⟨hafter.1, .reported (.inl hafter.2)⟩).bind fun found =>
      ensures_each fun before ⟨hbefore, hfound⟩ => ?_
  cases found with
  | none => exact ensures_pure fun _ heq => heq ▸ hbefore
  | some pipeline =>
      have hcommands : origin.registry.commandsOf parsers text =
          (origin.registry.bind parsers pipeline).2.toOption.getD [] := by
        rw [Registry.commandsOf, hfound pipeline rfl]
      have hbind := hbuiltin.bind_settles parsers pipeline
      refine ensures_session_bind ?_
      rintro _ rfl
      rw [hcommands, hbefore.registry]
      generalize origin.registry.bind parsers pipeline = bound at hbind ⊢
      obtain ⟨notes, result⟩ := bound
      have hnotes : Keeps (Standing origin)
          (Stops home input origin.out (result.toOption.getD []))
          (onMachine fun machine => machine.noteAll notes) :=
        ensures_modify fun _ hbefore => { hbefore with }
      refine Ensures.startingIn (hnotes.andThen fun _ => ?_) hbefore
      cases hbind with
      | refused hfault =>
          exact ensures_throw fun _ hbefore =>
            ⟨hbefore, .reported (.inr (.inl hfault))⟩
      | ok hprograms =>
          exact keeps_runStages hprograms (List.Subset.refl _) 0 fun _ hpath => hpath

/-- The faults of a line that remain when failures are reported: those that are none
to report, and those of the report itself. -/
def Escapes (home : String) (input : Source) (out : Option Nat)
    (pipeline : BoundPipeline) (fault : Fault) (session : Session Memory) : Prop :=
  session.err.Refuses session.machine fault ∨
    ¬ fault.Reported ∧ Stops home input out pipeline fault session

private theorem ensures_reportFailure (fault : Fault) :
    Ensures (fun session => Standing origin session ∧
      Stops home input out pipeline fault session) (Terminal.reportFailure fault)
        (fun _ => Standing origin)
      fun fault after => Standing origin after ∧
        Escapes home input out pipeline fault after := by
  have hreport : ∀ note line (code : ExitCode),
      Keeps (Standing origin) (Escapes home input out pipeline)
        (Act.note note >>= fun _ => reportLine line >>= fun _ => pure code) := by
    intro note line code
    refine (keeps_note_standing note).bind fun _ => Keeps.bind ?_ fun _ =>
      keeps_pure code
    exact (keeps_reportLine stableForErrors_standing line).imp_faulty
      fun _ _ hafter =>
      ⟨hafter.1, .inl hafter.2⟩
  have hgone : ¬ fault.Reported → Ensures
      (fun session => Standing origin session ∧
        Stops home input out pipeline fault session)
      (throw fault : Act Memory ExitCode) (fun _ => Standing origin)
      fun fault after => Standing origin after ∧
        Escapes home input out pipeline fault after :=
    fun hfault => ensures_throw fun _ hbefore =>
      ⟨hbefore.1, .inr ⟨hfault, hbefore.2⟩⟩
  cases fault with
  | failure cause =>
      unfold Terminal.reportFailure
      cases hkind : cause.kind with
      | parse | bind | runtime =>
          simp only [hkind]
          exact Ensures.imp_pre (hreport _ _ _) fun _ hbefore => hbefore.1
      | general | definition | config =>
          simp only [hkind]
          refine hgone ?_
          rintro (⟨_, ⟨⟩, hother⟩ | ⟨_, ⟨⟩, hother⟩ | ⟨_, ⟨⟩, hother⟩) <;>
            (rw [hkind] at hother; cases hother)
  | _ =>
      refine hgone ?_
      rintro (⟨_, ⟨⟩, _⟩ | ⟨_, ⟨⟩, _⟩ | ⟨_, ⟨⟩, _⟩)

end Execution

namespace Registry

variable {registry : Registry}

theorem BuiltinOnly.register (hbuiltin : registry.BuiltinOnly) {tied : Bool}
    {declaration : CommandDeclaration} (hmember : declaration ∈ Catalog.all tied)
    {schema : CommandSchema} {registry' : Registry} {notes : List Journal.Note}
    (hregister : registry.register (.command declaration) =
      .ok (schema, registry', notes)) :
    registry'.BuiltinOnly := by
  cases hschema : declaration.toSchema with
  | error error =>
      simp only [Registry.register, Registrant.toSchema, hschema] at hregister
      cases hregister
  | ok made =>
      simp only [Registry.register, Registrant.toSchema, hschema] at hregister
      cases hregister
      intro entry hentry
      rcases Table.mem_set hentry with hbefore | hmade
      · exact hbuiltin entry hbefore
      · exact ⟨tied, declaration, hmember, hmade ▸ hschema⟩

private theorem BuiltinOnly.registerAll (hbuiltin : registry.BuiltinOnly)
    {tied : Bool} {declarations : List CommandDeclaration}
    (hmembers : ∀ declaration ∈ declarations, declaration ∈ Catalog.all tied) :
    (registry.registerAll (declarations.map
      Registrant.command)).registry.BuiltinOnly := by
  induction declarations generalizing registry with
  | nil => exact hbuiltin
  | cons declaration rest ih =>
      obtain ⟨hmember, hrest⟩ := List.forall_mem_cons.mp hmembers
      rw [List.map_cons, Registry.registerAll]
      split
      · exact hbuiltin
      · next hregister => exact ih (hbuiltin.register hmember hregister) hrest

private theorem BuiltinOnly.registerBuiltins (hbuiltin : registry.BuiltinOnly)
    (disabled : List String) :
    (registry.registerBuiltins disabled).registry.BuiltinOnly :=
  hbuiltin.registerAll fun _ hmember => (List.mem_filter.mp hmember).1

private theorem BuiltinOnly.unregister (hbuiltin : registry.BuiltinOnly)
    (name : String) : (registry.unregister name).2.BuiltinOnly :=
  fun entry hentry => hbuiltin entry (List.mem_filter.mp hentry).1

end Registry

namespace Terminal

open Execution (Standing Escapes)

/-- What the operations on a terminal leave as it is: valid settings, and none but
the shell's own commands. -/
structure Sound (terminal : Terminal) : Prop where
  config : terminal.config.defect? = none
  registry : terminal.registry.BuiltinOnly

variable {terminal : Terminal}

private theorem maxHistory_of_valid {config : Config}
    (hvalid : config.defect? = none) :
    ∃ limit, config.get .maxHistory = .int limit := by
  have hcount : config.badCount? = none := by
    unfold Config.defect? at hvalid
    split at hvalid
    · cases hvalid
    · next hnone => exact hnone
  have hall := List.find?_eq_none.mp (Option.map_eq_none_iff.mp hcount)
  have hhistory := hall (.maxHistory, "history.max_size", 0) List.mem_cons_self
  cases hget : config.get .maxHistory with
  | int limit => exact ⟨limit, rfl⟩
  | _ => simp [hget, Config.isCount] at hhistory

theorem addHistory_of_valid (hvalid : terminal.config.defect? = none)
    (line : String) :
    ∃ memory, terminal.addHistory line = (.ok (), { terminal with memory }) := by
  obtain ⟨limit, hlimit⟩ := maxHistory_of_valid hvalid
  unfold addHistory
  simp only [hlimit]
  split
  · exact ⟨terminal.memory, rfl⟩
  · exact ⟨_, rfl⟩

theorem addHistory_sound (hsound : terminal.Sound) (line : String) :
    ∃ memory, terminal.addHistory line = (.ok (), { terminal with memory }) :=
  addHistory_of_valid hsound.config line

def lineAct (terminal : Terminal) (input : Source) (text : String) :
    Act Memory ExitCode :=
  tryCatch (Execution.interpret owner terminal.parsers terminal.home input text)
    reportFailure

def lineFrame (terminal : Terminal) (streams : Streams) : Session.Frame :=
  (terminal.sessionFor streams).frame

private theorem keeps_lineAct (hsound : terminal.Sound) (streams : Streams)
    (text : String) :
    Act.Keeps (Standing (terminal.lineFrame streams))
      (Escapes terminal.home streams.input streams.out.handle?
        (terminal.registry.commandsOf terminal.parsers text))
      (terminal.lineAct streams.input text) :=
  Act.ensures_tryCatch
    (Execution.keeps_interpret hsound.registry terminal.parsers terminal.home
      streams.input text)
    Execution.ensures_reportFailure

private theorem standing_sessionFor (streams : Streams) (memory : Memory) :
    Standing (terminal.lineFrame streams)
      ({ terminal with memory }.sessionFor streams) :=
  ⟨rfl, rfl, rfl, rfl, rfl⟩

/-- A blank line leaves everything as it was. Any other is run in a session of its
own, which stands as it began when the terminal takes it back. -/
theorem runOn_sound (hsound : terminal.Sound) (streams : Streams) (text : String) :
    terminal.runOn streams text =
      ⟨.ok .success, terminal, streams.out, streams.err⟩ ∨
      ∃ memory result session,
        terminal.runOn streams text =
            ⟨result, { terminal with memory }.absorb session, session.out,
              session.err⟩ ∧
          Standing (terminal.lineFrame streams) session ∧
            ∀ fault, result = .error fault →
              Escapes terminal.home streams.input streams.out.handle?
                (terminal.registry.commandsOf terminal.parsers text) fault
                  session := by
  obtain ⟨memory, hadded⟩ := addHistory_sound hsound text
  have hline := (keeps_lineAct hsound streams text).outcome
    (standing_sessionFor streams memory) rfl
  unfold runOn
  split
  · exact .inl rfl
  · rw [hadded]
    exact .inr ⟨memory, _, _, rfl, hline⟩

theorem Sound.runOn (hsound : terminal.Sound) (streams : Streams) (text : String) :
    (terminal.runOn streams text).terminal.Sound := by
  rcases runOn_sound hsound streams text with
    hblank | ⟨memory, result, session, hrun, hstanding, -⟩
  · rw [hblank]
    exact hsound
  · have hregistry : session.registry = terminal.registry := hstanding.registry
    rw [hrun]
    exact ⟨hsound.config, hregistry ▸ hsound.registry⟩

private theorem Sound.runLinesOn (hsound : terminal.Sound) (streams : Streams)
    (lines : List String) : (terminal.runLinesOn streams lines).terminal.Sound := by
  induction lines generalizing terminal streams with
  | nil => exact hsound
  | cons line rest ih =>
      have hline := hsound.runOn streams (Text.strip line)
      rw [Terminal.runLinesOn]
      split
      · exact ih hsound streams
      · split
        · next heq =>
            rw [heq] at hline
            exact ih hline _
        · next other _ _ => exact hline

/-- What can become of a terminal with none but the shell's own commands: it runs
lines and scripts, its host uses it, and the machine changes behind it. -/
inductive Step : Terminal → Terminal → Prop
  | line (terminal : Terminal) (streams : Streams) (text : String) :
      Step terminal (terminal.runOn streams text).terminal
  | script (terminal : Terminal) (streams : Streams) (lines : List String) :
      Step terminal (terminal.runLinesOn streams lines).terminal
  | directory {terminal moved : Terminal} (path : String)
      (hmoved : terminal.changeDirectory path = .ok moved) : Step terminal moved
  | history (terminal : Terminal) (line : String) :
  Step terminal (terminal.addHistory line).2
  | cleared (terminal : Terminal) : Step terminal terminal.clearHistory
  | deleted (terminal : Terminal) (position : Int) :
  Step terminal (terminal.deleteEntry position).2
  | builtins {terminal changed : Terminal} {count : Nat}
      (hchanged : terminal.registerBuiltins = .ok (count, changed)) :
      Step terminal changed
  | registered {terminal changed : Terminal} {schema : CommandSchema} {tied : Bool}
      {declaration : CommandDeclaration}
      (hdeclaration : declaration ∈ Catalog.all tied)
      (hchanged : terminal.register (.command declaration) = .ok (schema, changed)) :
      Step terminal changed
  | unregistered (terminal : Terminal) (name : String) :
  Step terminal (terminal.unregister name).2
  | parser (terminal : Terminal) (name : String) (parser : ValueParser) :
      Step terminal (terminal.setParser name parser)
  | completed (terminal : Terminal) (line : String) :
  Step terminal (terminal.complete line).2
  | streams (terminal : Terminal) (out err : Writer) :
  Step terminal { terminal with out, err }
  | machine (terminal : Terminal) (machine : Machine) :
  Step terminal { terminal with machine }

inductive Reachable : Terminal → Prop
  | new {machine : Machine} {config : Config} {out err : Writer}
      {registry : Registry} {builtins : Option Bool} {terminal : Terminal}
      (hregistry : registry.BuiltinOnly)
      (hnew : Terminal.new machine config out err registry builtins = .ok terminal) :
      Reachable terminal
  | step {terminal next : Terminal} (hreachable : Reachable terminal)
      (hstep : Step terminal next) :
      Reachable next

theorem registerBuiltins_ok {count : Nat} {changed : Terminal}
    (hchanged : terminal.registerBuiltins = .ok (count, changed)) :
    ∃ disabled, changed = terminal.registered
      (terminal.registry.registerBuiltins disabled) := by
  unfold Terminal.registerBuiltins at hchanged
  cases hnames : disabledNames (terminal.config.get .disabled) with
  | error fault =>
      rw [hnames] at hchanged
      cases hchanged
  | ok disabled =>
      rw [hnames] at hchanged
      cases hresult : (terminal.registry.registerBuiltins disabled).result with
      | ok registered =>
          simp only [bind, Except.bind, hresult] at hchanged
          cases hchanged
          exact ⟨disabled, rfl⟩
      | error failure =>
          simp only [bind, Except.bind, hresult] at hchanged
          cases hchanged

theorem Sound.registerBuiltins (hsound : terminal.Sound) {count : Nat}
    {changed : Terminal} (hchanged : terminal.registerBuiltins =
      .ok (count, changed)) : changed.Sound := by
  obtain ⟨disabled, rfl⟩ := registerBuiltins_ok hchanged
  exact ⟨hsound.config, hsound.registry.registerBuiltins disabled⟩

theorem Step.sound {next : Terminal} (hstep : Step terminal next)
    (hsound : terminal.Sound) :
    next.Sound := by
  cases hstep with
  | line streams text => exact hsound.runOn streams text
  | script streams lines => exact hsound.runLinesOn streams lines
  | directory path hmoved =>
      unfold changeDirectory at hmoved
      simp only at hmoved
      split at hmoved
      · cases hmoved
      · split at hmoved
        · cases hmoved
          exact hsound
        · cases hmoved
          exact ⟨hsound.config, hsound.registry⟩
  | history line =>
      obtain ⟨memory, hadded⟩ := addHistory_sound hsound line
      rw [hadded]
      exact ⟨hsound.config, hsound.registry⟩
  | builtins hchanged => exact hsound.registerBuiltins hchanged
  | registered hdeclaration hchanged =>
      unfold Terminal.register at hchanged
      split at hchanged
      · cases hchanged
      · next hregister =>
          cases hchanged
          exact ⟨hsound.config, hsound.registry.register hdeclaration hregister⟩
  | unregistered name => exact ⟨hsound.config, hsound.registry.unregister name⟩
  | deleted position =>
      unfold Terminal.deleteEntry
      exact ⟨hsound.config, hsound.registry⟩
  | completed line =>
      unfold Terminal.complete
      rcases Completion.complete terminal.completionScope line with ⟨notes, result⟩
      exact ⟨hsound.config, hsound.registry⟩
  | cleared | parser | streams | machine => exact ⟨hsound.config, hsound.registry⟩

section New

variable {machine : Machine} {config : Config} {out err : Writer}
  {registry : Registry}
  {builtins : Option Bool}

theorem assemble_ok
    (hassemble : assemble machine config out err registry builtins = .ok terminal) :
    ∃ home directory started note,
      config.home machine.userHome = .ok home ∧
        config.startDirectory machine.userHome = .ok directory ∧
        terminal = { started with machine := started.machine.note note } ∧
        let bare : Terminal :=
          { config, machine, home, memory := ⟨directory, none, []⟩, registry,
            parsers := [], out, err }
        started = bare ∨ ∃ count, bare.registerBuiltins = .ok (count, started) := by
  unfold assemble at hassemble
  simp only [bind, Except.bind, pure, Except.pure] at hassemble
  split at hassemble
  · cases hassemble
  · next _ home hhome =>
      split at hassemble
      · cases hassemble
      · next _ directory hdirectory =>
          split at hassemble
          · split at hassemble
            · cases hassemble
            · next started hmapped =>
                cases hassemble
                obtain ⟨⟨count, changed⟩, hchanged, rfl⟩ := exists_of_map_ok hmapped
                exact ⟨home, directory, changed, _, hhome, hdirectory, rfl,
                  .inr ⟨count, hchanged⟩⟩
          · cases hassemble
            exact ⟨home, directory, _, _, hhome, hdirectory, rfl, .inl rfl⟩

theorem new_ok
    (hnew : Terminal.new machine config out err registry builtins = .ok terminal) :
    config.defect? = none ∧ ∃ started, startJournal machine config =
      (started, .ok ()) ∧
      assemble started config out err registry builtins = .ok terminal := by
  unfold Terminal.new at hnew
  split at hnew
  · cases hnew
  · next hvalid =>
      split at hnew
      · cases hnew
      · next started hstarted =>
          refine ⟨hvalid, started, hstarted, ?_⟩
          cases hassemble : assemble started config out err registry builtins with
          | error fault =>
              rw [hassemble] at hnew
              cases hnew
          | ok made =>
              rw [hassemble] at hnew
              cases hnew
              rfl

theorem sound_of_new (hregistry : registry.BuiltinOnly)
    (hnew : Terminal.new machine config out err registry builtins = .ok terminal) :
    terminal.Sound := by
  obtain ⟨hvalid, started, -, hassemble⟩ := new_ok hnew
  obtain ⟨home, directory, ready, note, -, -, rfl, hready⟩ := assemble_ok hassemble
  have hbare : Sound
      { config, machine := started, home, memory := ⟨directory, none, []⟩, registry,
        parsers := [], out, err } :=
    ⟨hvalid, hregistry⟩
  have hsound : ready.Sound := by
    rcases hready with rfl | ⟨count, hchanged⟩
    · exact hbare
    · exact hbare.registerBuiltins hchanged
  exact ⟨hsound.config, hsound.registry⟩

end New

private theorem Reachable.sound (hreachable : Reachable terminal) :
    terminal.Sound := by
  induction hreachable with
  | new hregistry hnew => exact sound_of_new hregistry hnew
  | step _ hstep ih => exact hstep.sound ih

/-- A line gives an exit code in all but four cases: the run has been cancelled, a
command of the line is to write to a path with a zero character, a command may read
the file that it writes to, or the errors go to a file that is closed. -/
theorem runOn_answers (hreachable : Reachable terminal) (streams : Streams)
    (text : String) :
    ∃ ended, terminal.runOn streams text = ended ∧
      ((∃ code, ended.result = .ok code) ∨
        (ended.result = .error .cancellation ∧ streams.cancelled = true) ∨
        (ended.result = .error .zeroInPath ∧
          ∃ bound ∈ terminal.registry.commandsOf terminal.parsers text,
            bound.WritesToZero terminal.home ended.terminal.memory.directory) ∨
        (ended.result = .error .endless ∧
          ∃ bound ∈ terminal.registry.commandsOf terminal.parsers text,
            bound.FeedsItself terminal.home streams.input streams.out.handle?
              ended.terminal.machine ended.terminal.memory.directory) ∨
        ∃ fault, ended.result = .error fault ∧
          streams.err.Refuses ended.terminal.machine fault) := by
  have hsound := hreachable.sound
  rcases runOn_sound hsound streams text with
    hblank | ⟨memory, result, session, hrun, hstanding, hescapes⟩
  · exact ⟨_, hblank, .inl ⟨_, rfl⟩⟩
  · refine ⟨_, hrun, ?_⟩
    cases result with
    | ok code => exact .inl ⟨code, rfl⟩
    | error fault =>
        rcases hescapes fault rfl with hrefuses | ⟨hreported, hstops⟩
        · obtain ⟨handle, output, hhandle, houtput, hclosed, hfault⟩ := hrefuses
          have herr : streams.err.handle? = some handle :=
            hstanding.err.symm.trans hhandle
          exact .inr (.inr (.inr (.inr
            ⟨fault, rfl, handle, output, herr, houtput, hclosed, hfault⟩)))
        · have hdirectory : session.directory = session.owner.directory :=
            hstanding.agrees
          cases hstops with
          | cancelled hcancelled =>
              exact .inr (.inl ⟨rfl, hstanding.cancelled.symm.trans hcancelled⟩)
          | reported hfault => exact absurd hfault hreported
          | zero bound hbound hzero =>
              exact .inr (.inr (.inl ⟨rfl, bound, hbound, hdirectory ▸ hzero⟩))
          | endless bound hbound hfeeds =>
              exact .inr (.inr (.inr (.inl
                ⟨rfl, bound, hbound, hdirectory ▸ hfeeds⟩)))

/-! A terminal as it starts, in a directory with one file. -/

def startedAs : Except (Fault × Machine) Terminal :=
  Terminal.new
    (Machine.new (FileTree.empty.plant "/home/user/notes"
      (.file (Text.Utf8.encode "one\ntwo\n"))) "/home/user" 0 false)
    .default (.text "") (.text "") .empty none

theorem startedAs_isSome : startedAs.toOption.isSome = true := by
  decide +kernel

def freshTerminal : Terminal := startedAs.toOption.get startedAs_isSome

theorem startedAs_eq : startedAs = .ok freshTerminal := by
  have hget : startedAs.toOption = some freshTerminal :=
    (Option.some_get startedAs_isSome).symm
  cases hstarted : startedAs with
  | error fault =>
      rw [hstarted] at hget
      cases hget
  | ok terminal =>
      rw [hstarted] at hget
      rw [Option.some.inj hget]

theorem builtinOnly_empty : Registry.empty.BuiltinOnly :=
  fun _ hentry => absurd hentry List.not_mem_nil

theorem reachable_freshTerminal : Reachable freshTerminal :=
  .new builtinOnly_empty startedAs_eq

def badLine : String := "cat notes missing | grep -p \"[\" >> notes"

theorem runOn_answers_badLine :
    Reachable freshTerminal ∧
      ∃ ended, freshTerminal.runOn (freshTerminal.ownStreams .empty false)
        badLine = ended ∧
        ((∃ code, ended.result = .ok code) ∨
          (ended.result = .error .cancellation ∧ false = true) ∨
          (ended.result = .error .zeroInPath ∧
            ∃ bound ∈
              freshTerminal.registry.commandsOf freshTerminal.parsers badLine,
              bound.WritesToZero freshTerminal.home
                ended.terminal.memory.directory) ∨
          (ended.result = .error .endless ∧
            ∃ bound ∈
              freshTerminal.registry.commandsOf freshTerminal.parsers badLine,
              bound.FeedsItself freshTerminal.home .empty freshTerminal.out.handle?
                ended.terminal.machine ended.terminal.memory.directory) ∨
          ∃ fault, ended.result = .error fault ∧
            freshTerminal.err.Refuses ended.terminal.machine fault) :=
  ⟨reachable_freshTerminal,
    runOn_answers reachable_freshTerminal (freshTerminal.ownStreams .empty false)
      badLine⟩

def endsWithZero : Except Fault ExitCode → Bool
  | .error (.badValue message) => message = "embedded null byte"
  | _ => false

private theorem eq_of_endsWithZero {result : Except Fault ExitCode}
    (hends : endsWithZero result = true) :
    result = .error .zeroInPath := by
  unfold endsWithZero at hends
  split at hends
  · rw [Fault.zeroInPath, of_decide_eq_true hends]
  · cases hends

theorem zero_target_escapes :
    Reachable freshTerminal ∧
      (freshTerminal.runOn (freshTerminal.ownStreams .empty false)
        "echo x > a\x00b").result =
        .error .zeroInPath := by
  refine ⟨reachable_freshTerminal, ?_⟩
  apply eq_of_endsWithZero
  decide +kernel

end Terminal

end PipeShell
