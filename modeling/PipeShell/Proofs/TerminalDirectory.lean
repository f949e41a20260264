import PipeShell.Proofs.Answers
import PipeShell.Proofs.Calls
import PipeShell.Proofs.CdCommand
import PipeShell.Proofs.ClosedOutputs

namespace PipeShell

open Channel (Source Writer)

namespace Execution

open Act

variable {σ : Type}

/-- What the executor does between the commands does not disturb the invariant. -/
structure Undisturbed (inv : Session σ → Prop) : Prop extends Unreported inv where
  output : ∀ session writer, inv session → inv { session with out := writer }
  opened : ∀ {session path append machine handle}, inv session →
    session.machine.openOutput path append = .ok (machine, handle) →
      inv { session with machine }
  closed : ∀ session handle, inv session →
    inv { session with machine := session.machine.closeOutput handle }

section Undisturbed

variable {inv : Session σ → Prop} {owner : Owner σ} {body : Body σ} {home : String}

private theorem Undisturbed.close (hinv : Undisturbed inv) (outlet : Outlet)
    {session : Session σ} (hsession : inv session) : inv (outlet.close session) := by
  cases outlet with
  | own | pipe => exact hsession
  | file handle => exact hinv.closed session handle hsession

private theorem Undisturbed.stageOutput (hinv : Undisturbed inv)
    (bound : BoundCommand) (isLast : Bool) :
    Keeps inv anyhow (stageOutput home bound isLast) := by
  unfold Execution.stageOutput
  cases bound.redirections.stdout with
  | none => exact keeps_pure _
  | some output =>
      have hresolve : Keeps inv anyhow (Execution.resolve home output.path) :=
        ⟨fun _ hbefore => hbefore⟩
      refine hresolve.bind fun resolved =>
        ensures_session_bind fun before hbefore => ?_
      cases hopen : before.machine.openOutput resolved output.append with
      | ok opened =>
          obtain ⟨machine, handle⟩ := opened
          constructor
          rintro here rfl
          exact hinv.opened hbefore hopen
      | error fault =>
          cases fault with
          | failure cause =>
              refine ensures_pure ?_
              rintro here rfl
              exact hbefore
          | _ =>
              refine ensures_throw ?_
              rintro here rfl
              exact ⟨hbefore, trivial⟩

private theorem Undisturbed.onStage (hinv : Undisturbed inv) {α : Type}
    {act : Act σ α} (hact : Keeps inv anyhow act) (outlet : Outlet)
    (current : Source) : Keeps inv anyhow (onStage outlet current act) := by
  have hgiven (writer : Writer) : Keeps inv anyhow (withOutput writer act) :=
    ensures_each fun before hbefore =>
      ensures_withOutput (Ensures.startingIn hact
        (hinv.output before writer hbefore))
        (fun _ after hafter => hinv.output after before.out hafter)
        fun _ after hafter => ⟨hinv.output after before.out hafter.1, trivial⟩
  cases outlet with
  | own => exact hact.bind fun _ => keeps_pure _
  | pipe | file => exact (hgiven _).bind fun _ => keeps_pure _

private theorem Undisturbed.runStages (hinv : Undisturbed inv)
    {pipeline : BoundPipeline} (hcommand : ∀ bound ∈ pipeline, ∀ input,
      Keeps inv anyhow (runCommand owner body home bound input))
    (index : Nat) (current : Source) :
    Keeps inv anyhow (runStages owner body home index current pipeline) := by
  induction pipeline generalizing index current with
  | nil => exact keeps_pure _
  | cons bound rest ih =>
      obtain ⟨hbound, hrest⟩ := List.forall_mem_cons.mp hcommand
      have hreport (line : String) (code : ExitCode) :
          Keeps inv anyhow (do errorLine line; return code) :=
        (keeps_errorOf hinv.toUnreported line).bind fun _ => keeps_pure code
      rw [Execution.runStages]
      refine (keeps_check fun _ _ _ => trivial).bind fun _ => ?_
      refine (keeps_stageInputOf hinv.toUnreported index current).bind fun found =>
        ?_
      cases found with
      | error missing => exact hreport _ _
      | ok input =>
          refine (hinv.stageOutput bound rest.isEmpty).bind fun found => ?_
          cases found with
          | error cause => exact hreport _ _
          | ok outlet =>
              have hstage : Keeps inv anyhow (do
                  note (runningNote index bound)
                  let ended ← Execution.onStage outlet current
                    (runCommand owner body home bound input)
                  proceed index bound
                    (Execution.runStages owner body home (index + 1) · rest)
                      ended) := by
                refine (keeps_noteOf hinv.toUnreported _).bind fun _ => ?_
                refine (hinv.onStage (hbound input) outlet current).bind fun ended =>
                  ?_
                obtain ⟨code, next⟩ := ended
                rw [proceed]
                split
                · exact (keeps_noteOf hinv.toUnreported _).bind fun _ =>
                    keeps_pure code
                · exact ih hrest (index + 1) next
              exact ensures_afterwards hstage (fun _ _ hafter =>
                hinv.close outlet hafter)
                fun _ _ hafter => ⟨hinv.close outlet hafter.1, trivial⟩

end Undisturbed

end Execution

/-- A call of `cd` that finds the directory it is to go to. -/
def Call.Moved (call : Call Terminal.Memory) : Prop :=
  call.bound.command.program = .builtin .cd ∧
    Table.get? Instance.programSlot call.bound.command.values = none ∧
    (Builtin.destination call.context call.session.machine.files).isSome = true

namespace Terminal

open Act Execution

section Call

variable {call : Call Memory}

theorem ended_cd (hprogram : call.bound.command.program = .builtin .cd)
    (hshown : Table.get? Instance.programSlot call.bound.command.values = none) :
    (call.ended (commands owner)).1 =
      (outcome (Builtin.runCd owner call.context) call.session).1.map .code := by
  rw [Call.ended, commands, Instance.run, hprogram, hshown]
  change (outcome (Builtin.runCd owner call.context >>= fun code =>
    pure (Status.code code)) call.session).1 = _
  rw [outcome_bind]
  rcases outcome (Builtin.runCd owner call.context) call.session with
    ⟨fault | code, after⟩ <;>
    rfl

private theorem moved_of_ended (hprogram : call.bound.command.program = .builtin .cd)
    (hended : (call.ended (commands owner)).1 = .ok (.code .success)) :
    call.Moved := by
  cases hshown : Table.get? Instance.programSlot call.bound.command.values with
  | some value =>
      rw [Call.ended, commands, Instance.run, hprogram, hshown] at hended
      cases hended
  | none =>
      refine ⟨hprogram, hshown, ?_⟩
      rw [ended_cd hprogram hshown] at hended
      cases hdestination : Builtin.destination call.context
        call.session.machine.files with
      | some path => rfl
      | none =>
          have hrefused :=
            (@ensures_runCd_refused call.session call.context (fun _ => True)
              (fun _ _ _ _ _ => trivial) trivial hdestination).ended _ rfl
          generalize outcome (Builtin.runCd owner call.context) call.session = ended
            at hended hrefused
          rcases ended with ⟨fault | code, after⟩
          · cases hended
          · cases hended
            exact absurd rfl hrefused.1

theorem ended_of_moved (hmoved : call.Moved) :
    (call.ended (commands owner)).1 = .ok (.code .success) ∨
      call.context.arguments = ["-"] ∧ ∃ fault,
        (call.ended (commands owner)).1 = .error fault ∧
          (call.session.cancelled = true ∨
            call.session.out.Refuses call.session.machine fault) := by
  obtain ⟨hprogram, hshown, hsome⟩ := hmoved
  obtain ⟨path, hdestination⟩ := Option.isSome_iff_exists.mp hsome
  obtain ⟨target, -, hback, -, houtcome⟩ := outcome_runCd hdestination
  rw [ended_cd hprogram hshown, houtcome]
  rcases ended_printing target (arrived call.session target.target) with
    hprinted | ⟨hprinted, fault, hfault, hcause⟩
  · rw [hprinted]
    exact .inl rfl
  · rw [hfault]
    exact .inr ⟨hback hprinted, fault, rfl, hcause⟩

end Call

/-- A session of a line that began here, which the terminal has not left unless a
command has moved it. -/
structure Traced (start : Whereabouts)
    (session : Session (Memory × List (Call Memory))) :
    Prop where
  located : Located start.directory session.plain
  moved : session.owner.1.whereabouts = start ∨ ∃ call ∈ session.owner.2, call.Moved

variable {start : Whereabouts} {session : Session (Memory × List (Call Memory))}
  {home : String} {bound : BoundCommand}

private theorem Traced.on_machine (htraced : Traced start session)
    {machine : Machine} (hgrounded : session.machine.Grounded machine) :
    Traced start { session with machine } :=
  ⟨htraced.located.of_same hgrounded rfl rfl rfl, htraced.moved⟩

theorem undisturbed_traced : Undisturbed (Traced start) where
  noted session note htraced :=
    htraced.on_machine (Machine.grounded_note session.machine note)
  errors _ _ _ htraced hwrote :=
    ⟨htraced.located.of_same (Machine.grounded_of_wrote hwrote) rfl rfl rfl,
      htraced.moved⟩
  output _ _ htraced :=
    ⟨htraced.located.of_same (.refl _) rfl rfl rfl, htraced.moved⟩
  opened htraced hopen := htraced.on_machine (Machine.grounded_openOutput hopen)
  closed session handle htraced :=
    htraced.on_machine (Machine.grounded_closeOutput session.machine handle)

/-- A command that moves the terminal has been called to do so. -/
theorem Traced.called (htraced : Traced start session) {builtin : Builtin}
    (hprogram : bound.command.program = .builtin builtin) {context : Context}
    (hinformed : Informed context)
    (hdirectory : session.directory = context.directory) :
    Ensures (· = session) (called (commands owner) bound context)
      (fun _ => Traced start) fun _ => Traced start := by
  constructor
  rintro here rfl
  have hstays : Stays start.directory here.owner.1.whereabouts here.plain :=
    ⟨htraced.located, rfl⟩
  let call : Call Memory := ⟨bound, context, here.plain⟩
  have hcommand := (ensures_command hinformed hprogram hstays hdirectory
    fun hcd hshown hthere =>
      (⟨hcd ▸ hprogram, hshown, hthere⟩ : call.Moved)).after rfl
  have hafter : Traced start
      ((outcome (commands owner bound context) here.plain).2.beside
        (here.owner.2 ++ [call])) := by
    refine ⟨hcommand.located, ?_⟩
    rcases hcommand.place with hstayed | hmoved
    · rcases htraced.moved with hstart | ⟨earlier, member, hmoved⟩
      · exact .inl (hstayed.trans hstart)
      · exact .inr ⟨earlier, List.mem_append_left _ member, hmoved⟩
    · exact .inr ⟨call, List.mem_append_right _ List.mem_cons_self, hmoved⟩
  rw [outcome_called]
  rcases hresult : (outcome (commands owner bound context) here.plain).1 with
    fault | status
  · exact hafter
  · exact hafter

private theorem keeps_traced_command (hhome : Path.Normal home) {builtin : Builtin}
    (hprogram : bound.command.program = .builtin builtin) (input : Source) :
    Keeps (Traced start) anyhow
      (runCommand owner.beside (called (commands owner)) home bound input) := by
  refine ensures_session_bind fun before hbefore => ?_
  have hinformed : Informed (stageContext home bound input before.plain) :=
    ⟨hhome, hbefore.located.previous⟩
  have hexit (status : Status) :
      Keeps (Traced start) anyhow (lift status.exitCode) :=
    ensures_lift (fun _ _ _ hbefore => hbefore) fun _ _ _ hbefore =>
      ⟨hbefore, trivial⟩
  have hbody := (hbefore.called hprogram hinformed rfl).bind fun status =>
    (hexit status).imp_faulty fun _ _ hafter => hafter.1
  exact ensures_tryCatch hbody fun fault =>
    keeps_recover undisturbed_traced.toUnreported bound fault

private theorem traced_interpret (hhome : Path.Normal home)
    (hregistry : session.registry.BuiltinOnly) (htraced : Traced start session)
    (parsers : Parsers) (input : Source) (text : String) :
    Traced start (outcome
      (interpretWith owner.beside (called (commands owner)) parsers home input text)
      session).2 := by
  have hnoted (notes : List Journal.Note) :=
    undisturbed_traced.toUnreported.notedAll htraced notes
  rcases hparse : Pipeline.parse text with error | _ | pipeline
  · rw [outcome_interpretWith_of_parse_error owner.beside _ home input
      session hparse]
    exact hnoted _
  · rw [interpretWith, outcome_bind, outcome_parse, hparse]
    exact hnoted _
  · have hbind := hregistry.bind_settles parsers pipeline
    rcases hbound : session.registry.bind parsers pipeline with ⟨notes, result⟩
    rw [hbound] at hbind
    rw [outcome_interpretWith_of_parse owner.beside _ home input session
      hparse hbound]
    cases hbind with
    | refused hfault => exact hnoted _
    | ok hprograms =>
        have hstages : Keeps (Traced start) anyhow
            (execute owner.beside (called (commands owner)) home input _) :=
          undisturbed_traced.runStages (fun bound member input =>
            keeps_traced_command hhome
              (hprograms bound member).choose_spec input) 0 input
        exact (hstages.imp_faulty fun _ _ hafter => hafter.1).after (hnoted _)

/-- Runs a line, and records the calls of its commands. -/
def record (terminal : Terminal) (streams : Streams) (text : String) :
    LineResult × List (Call Memory) :=
  if Text.allBlank text then (⟨.ok .success, terminal, streams.out, streams.err⟩, [])
  else
    match terminal.addHistory text with
    | (.error fault, terminal) =>
        (⟨.error fault, terminal, streams.out, streams.err⟩, [])
    | (.ok (), terminal) =>
        let act := tryCatch
          (interpretWith owner.beside (called (commands owner)) terminal.parsers
            terminal.home streams.input text) reportFailure
        let (result, session) :=
          outcome act ((terminal.sessionFor streams).beside [])
        (terminal.ended (result, session.plain), session.owner.2)

theorem record_eq (terminal : Terminal) (streams : Streams) (text : String) :
    (terminal.record streams text).1 = terminal.runOn streams text := by
  unfold record runOn
  split
  · rfl
  · rcases terminal.addHistory text with ⟨fault | _, added⟩
    · rfl
    · have hline : Related (Session.Linked Eq Alongside)
          (tryCatch (interpretWith owner.beside (called (commands owner))
            added.parsers added.home streams.input text) reportFailure)
          (tryCatch (interpret owner added.parsers added.home streams.input text)
            reportFailure) :=
        related_tryCatch (linked_interpretWith Machine.seen_eq.toSteady
          (alongside_owner owner) (linked_called _) _ _ _ _)
          (linked_reportFailure Machine.seen_eq.toSteady)
      obtain ⟨hresult, hafter⟩ :=
        hline _ _ (linked_plain ((added.sessionFor streams).beside []))
      exact congrArg added.ended (Prod.ext hresult (eq_plain_of_linked hafter).symm)

/-- The directories of the terminal are written in full, and are two. -/
structure Oriented (terminal : Terminal) : Prop where
  solid : terminal.machine.Solid
  home : Path.Normal terminal.home
  directory : Path.Normal terminal.memory.directory
  previous : ∀ path, terminal.memory.previous = some path →
    Path.Normal path ∧ path ≠ terminal.memory.directory

variable {terminal : Terminal}

private theorem Oriented.remember (horiented : terminal.Oriented) {memory : Memory}
    (hmemory : memory.whereabouts = terminal.memory.whereabouts) :
    Oriented { terminal with memory } := by
  have hdirectory : memory.directory = terminal.memory.directory :=
    congrArg Whereabouts.directory hmemory
  have hprevious : memory.previous = terminal.memory.previous :=
    congrArg Whereabouts.previous hmemory
  refine ⟨horiented.solid, horiented.home, ?_, ?_⟩
  · exact hdirectory ▸ horiented.directory
  · change ∀ path, memory.previous = some path → Path.Normal path ∧
      path ≠ memory.directory
    rw [hdirectory, hprevious]
    exact horiented.previous

private theorem Oriented.traced (horiented : terminal.Oriented) (streams : Streams) :
    Traced terminal.memory.whereabouts
      ((terminal.sessionFor streams).beside []) := by
  refine ⟨⟨horiented.solid, rfl, horiented.directory, ?_, horiented.previous,
    .inl rfl⟩, .inl rfl⟩
  exact fun path hpath => (horiented.previous path hpath).1

/-- What is known of a terminal once something has been done with it. -/
structure Travels (moved : Prop) (before after : Terminal) : Prop where
  oriented : after.Oriented
  stands : after.memory.directory ≠ before.memory.directory →
    after.machine.files.isDirectory after.memory.directory = true
  stays : ¬ moved → after.memory.whereabouts = before.memory.whereabouts

private theorem Traced.travels (htraced : Traced start session) {before : Terminal}
    (hstart : before.memory.whereabouts = start)
    (hhome : Path.Normal terminal.home) :
    Travels (∃ call ∈ session.owner.2, call.Moved) before
      (terminal.absorb session.plain) := by
  subst hstart
  have hlocated := htraced.located
  have hagrees : session.directory = session.owner.1.directory := hlocated.agrees
  refine ⟨⟨hlocated.solid, hhome, hagrees ▸ hlocated.normal, hlocated.earlier⟩,
    ?_, ?_⟩
  · intro hother
    rcases hlocated.stands with hsame | hdirectory
    · exact absurd (hagrees.symm.trans hsame) hother
    · exact hagrees ▸ hdirectory
  · exact htraced.moved.resolve_right

theorem Oriented.travels (horiented : terminal.Oriented) (moved : Prop) :
    Travels moved terminal terminal :=
  ⟨horiented, fun hother => absurd rfl hother, fun _ => rfl⟩

private theorem travels_runOn (hsound : terminal.Sound)
    (horiented : terminal.Oriented) (streams : Streams) (text : String) :
    Travels (∃ call ∈ (terminal.record streams text).2, call.Moved) terminal
      (terminal.runOn streams text).terminal := by
  obtain ⟨memory, hadded⟩ := addHistory_sound hsound text
  have hmemory : memory.whereabouts = terminal.memory.whereabouts := by
    rw [← whereabouts_addHistory terminal text, hadded]
  have hadds := horiented.remember hmemory
  rw [← record_eq]
  unfold record
  split
  · exact horiented.travels _
  · rw [hadded]
    have hline := traced_interpret hadds.home hsound.registry (hadds.traced streams)
      terminal.parsers streams.input text
    refine Traced.travels ?_ hmemory.symm hadds.home
    rw [outcome_tryCatch]
    generalize outcome (interpretWith owner.beside _ _ _ _ _) _ = ended at hline ⊢
    rcases ended with ⟨fault | code, after⟩
    · have hreport := (keeps_reportFailure
        (@undisturbed_traced memory.whereabouts).toUnreported fault).imp_faulty
          fun _ _ hafter => hafter.1
      exact hreport.after hline
    · exact hline

theorem travels_changeDirectory (horiented : terminal.Oriented) {path : String}
    {moved : Terminal} (hmoved : terminal.changeDirectory path = .ok moved) :
    Travels True terminal moved := by
  have hnormal := Path.normal_resolve path terminal.memory.directory terminal.home
  unfold changeDirectory at hmoved
  simp only at hmoved
  generalize Path.resolve path terminal.memory.directory terminal.home =
    resolved at hmoved hnormal
  split at hmoved
  · cases hmoved
  · next hdirectory =>
      split at hmoved
      · cases hmoved
        exact horiented.travels _
      · next hother =>
          cases hmoved
          obtain ⟨hsame, hsolid⟩ :=
            Machine.grounded_note terminal.machine _ horiented.solid
          rw [Memory.enter, if_neg hother]
          refine ⟨⟨hsolid, horiented.home, hnormal, ?_⟩, fun _ => ?_, ?_⟩
          · rintro _ ⟨⟩
            exact ⟨horiented.directory, Ne.symm hother⟩
          · exact hsame.isDirectory (by simpa using hdirectory)
          · exact fun hstayed => absurd trivial hstayed

private theorem Oriented.noted (horiented : terminal.Oriented)
    (note : Journal.Note) :
    Oriented { terminal with machine := terminal.machine.note note } :=
  { horiented with solid := (Machine.grounded_note _ note horiented.solid).2 }

private theorem Oriented.registered (horiented : terminal.Oriented)
    (outcome : Registry.Outcome) : (terminal.registered outcome).Oriented :=
  { horiented with solid :=
    (Machine.grounded_noteAll _ outcome.notes horiented.solid).2 }

theorem normal_home {config : Config} {userHome home : String}
    (hhome : config.home userHome = .ok home) : Path.Normal home := by
  have hnormal := @Path.normal_absolute
  unfold Config.home at hhome
  split at hhome
  · rw [← Except.ok.inj hhome]
    exact hnormal _
  · split at hhome
    · cases hhome
    · rw [← Except.ok.inj hhome]
      exact hnormal _

private theorem normal_startDirectory {config : Config} {userHome directory : String}
    (hstart : config.startDirectory userHome = .ok directory) :
    Path.Normal directory := by
  unfold Config.startDirectory at hstart
  split at hstart
  · exact normal_home hstart
  · rw [← Except.ok.inj hstart]
    exact Path.normal_absolute _
  · cases hstart

private theorem solid_startJournal {machine started : Machine} {config : Config}
    (hmachine : machine.Startable)
    (hstart : startJournal machine config = (started, .ok ())) : started.Solid := by
  unfold startJournal at hstart
  split at hstart
  · cases hstart
    exact hmachine.toSolid
  · split at hstart
    · cases hstart
    · exact hmachine.startJournal hstart

theorem oriented_of_new {machine : Machine} {config : Config} {out err : Writer}
    {registry : Registry} {builtins : Option Bool} (hmachine : machine.Startable)
    (hnew : Terminal.new machine config out err registry builtins = .ok terminal) :
    terminal.Oriented := by
  obtain ⟨-, started, hstarted, hassemble⟩ := new_ok hnew
  obtain ⟨home, directory, ready, note, hhome, hdirectory, rfl, hready⟩ :=
    assemble_ok hassemble
  have hbare : Oriented
      { config, machine := started, home, memory := ⟨directory, none, []⟩, registry,
        parsers := [], out, err } :=
    ⟨solid_startJournal hmachine hstarted, normal_home hhome,
      normal_startDirectory hdirectory, nofun⟩
  rcases hready with rfl | ⟨count, hchanged⟩
  · exact hbare.noted note
  · obtain ⟨disabled, rfl⟩ := registerBuiltins_ok hchanged
    exact (hbare.registered _).noted note

/-- Goes to a directory, or stays if that is none. -/
def moveTo (terminal : Terminal) (path : String) :
    Except Fault ExitCode × Terminal :=
  match terminal.changeDirectory path with
  | .ok moved => (.ok .success, moved)
  | .error fault => (.error fault, terminal)

theorem moveTo_cases (terminal : Terminal) (path : String) :
    (∃ fault, terminal.moveTo path = (.error fault, terminal)) ∨
      ∃ moved, terminal.moveTo path = (.ok .success, moved) ∧
        terminal.changeDirectory path = .ok moved := by
  unfold moveTo
  cases terminal.changeDirectory path with
  | error fault => exact .inl ⟨fault, rfl⟩
  | ok moved => exact .inr ⟨moved, rfl, rfl⟩

inductive Operation where
  | line (input : Source) (cancelled : Bool) (text : String)
  | lineOn (streams : Streams) (text : String)
  | move (path : String)

namespace Operation

def perform (terminal : Terminal) : Operation → Except Fault ExitCode × Terminal
  | .line input cancelled text => terminal.runLine input cancelled text
  | .lineOn streams text =>
      ((terminal.runOn streams text).result, (terminal.runOn streams text).terminal)
  | .move path => terminal.moveTo path

def line? (terminal : Terminal) : Operation → Option (Streams × String)
  | .line input cancelled text => some (terminal.ownStreams input cancelled, text)
  | .lineOn streams text => some (streams, text)
  | .move _ => none

/-- The calls of the commands of the operation. -/
def calls (terminal : Terminal) (operation : Operation) : List (Call Memory) :=
  match operation.line? terminal with
  | some (streams, text) => (terminal.record streams text).2
  | none => []

end Operation

def perform (terminal : Terminal) (operations : List Operation) : Terminal :=
  operations.foldl (fun terminal operation => (operation.perform terminal).2)
    terminal

theorem Sound.operate (hsound : terminal.Sound) (operation : Operation) :
    (operation.perform terminal).2.Sound := by
  cases operation with
  | line input cancelled text =>
      have hline := hsound.runOn (terminal.ownStreams input cancelled) text
      exact ⟨hline.config, hline.registry⟩
  | lineOn streams text => exact hsound.runOn streams text
  | move path =>
      change (terminal.moveTo path).2.Sound
      rcases terminal.moveTo_cases path with
        ⟨fault, hrefused⟩ | ⟨moved, hresult, hmoved⟩
      · rw [hrefused]
        exact hsound
      · rw [hresult]
        exact (Step.directory path hmoved).sound hsound

theorem travels_operation (hsound : terminal.Sound) (horiented : terminal.Oriented)
    (operation : Operation) :
    Travels ((operation.perform terminal).1 = .ok .success ∨
        ∃ call ∈ operation.calls terminal, call.Moved) terminal
      (operation.perform terminal).2 := by
  cases operation with
  | line input cancelled text =>
      have hline := travels_runOn hsound horiented
        (terminal.ownStreams input cancelled) text
      refine ⟨{ hline.oriented with }, hline.stands, fun hstays => ?_⟩
      exact hline.stays fun hmoved => hstays (.inr hmoved)
  | lineOn streams text =>
      have hline := travels_runOn hsound horiented streams text
      refine ⟨hline.oriented, hline.stands, fun hstays => ?_⟩
      exact hline.stays fun hmoved => hstays (.inr hmoved)
  | move path =>
      change Travels ((terminal.moveTo path).1 = .ok .success ∨ _) terminal
        (terminal.moveTo path).2
      rcases terminal.moveTo_cases path with
        ⟨fault, hrefused⟩ | ⟨moved, hresult, hmoved⟩
      · rw [hrefused]
        exact horiented.travels _
      · rw [hresult]
        have htravels := travels_changeDirectory horiented hmoved
        exact ⟨htravels.oriented, htravels.stands, fun hstays =>
          absurd (.inl rfl) hstays⟩

private theorem perform_sound_oriented (hsound : terminal.Sound)
    (horiented : terminal.Oriented) (operations : List Operation) :
    (terminal.perform operations).Sound ∧
    (terminal.perform operations).Oriented := by
  induction operations generalizing terminal with
  | nil => exact ⟨hsound, horiented⟩
  | cons operation rest ih =>
      rw [perform, List.foldl_cons]
      exact ih (hsound.operate operation)
        (travels_operation hsound horiented operation).oriented

def hostMachine : Machine :=
  Machine.new (FileTree.empty.plant "/home/user" .directory) "/home/user" 0 false

def openedFile : Except Fault (Machine × Nat) :=
  hostMachine.openOutput "/home/user/out" false

def startedOnFile (machine : Machine) : Except (Fault × Machine) Terminal :=
  Terminal.new machine .default (.file 0) (.text "") .empty none

def lostLine : Operation := .line .empty false "cd missing | cd /"

def Lost (reached : Terminal) : Prop :=
  reached.memory.whereabouts = ⟨"/home", some "/home/user"⟩ ∧
    (lostLine.perform reached).1.toOption ≠ some .success ∧
    ∀ call ∈ lostLine.calls reached,
      (Builtin.destination call.context call.session.machine.files).isSome = false

instance (reached : Terminal) : Decidable (Lost reached) :=
  inferInstanceAs (Decidable (_ ∧ _))

end Terminal

end PipeShell
