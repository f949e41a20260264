import PipeShell.Proofs.HistoryNumbers
import PipeShell.Proofs.TerminalDirectory

namespace PipeShell

open Channel (Source Writer)

namespace Session

/-- The output is no file that has been closed. -/
def Frame.Takes (frame : Frame) : Prop :=
  ∀ handle output, frame.out = some handle → frame.outputs[handle]? = some output →
    output.closed = false

variable {σ : Type} {session : Session σ}

private theorem Frame.Takes.not_refuses (htakes : session.frame.Takes)
    {fault : Fault} :
    ¬ session.out.Refuses session.machine fault := by
  rintro ⟨handle, output, hhandle, houtput, hclosed, -⟩
  have hlasting : session.frame.outputs[handle]? = some output.lasting := by
    rw [frame, List.getElem?_map, houtput, Option.map_some]
  have hopen : output.closed = false := htakes handle output.lasting hhandle hlasting
  rw [hclosed] at hopen
  cases hopen

end Session

private theorem Execution.unreported_frame {σ : Type} (P : Session.Frame → Prop) :
    Unreported fun session : Session σ => P session.frame where
  noted session note hsession := by
    have hframe : (session.noted [note]).frame = session.frame := by
      rw [Session.frame, Session.frame]
      exact congrArg (Session.Frame.mk _ _ _ _ <| List.map _ ·)
        (Machine.outputs_note _ note)
    rwa [hframe]
  errors session err machine hsession hwrote := by
    have hframe : { session with err, machine }.frame = session.frame :=
      Session.frame_err hwrote
    change P _
    rwa [hframe]

namespace Terminal

open Act Execution

def cdSchema : CommandSchema :=
  { name := "cd"
    description := "Change working directory"
    options := []
    typeName := "CdCommand"
    factory := .itself
    program := .builtin .cd
    hook := .none }

def backCommand : BoundCommand :=
  { command := ⟨"CdCommand", "cd", [], .builtin .cd, .none⟩
    schema := cdSchema
    arguments := ["-"]
    redirections := ⟨none, none⟩ }

theorem parse_back :
    Pipeline.parse "cd -" = .ok (some [⟨"cd", ["-"], [], ⟨none, none⟩⟩]) := rfl

theorem bindCommand_back {registry : Registry}
    (hcommand : registry.lookup "cd" = some cdSchema) (parsers : Parsers) :
    ∃ note, registry.bindCommand parsers ⟨"cd", ["-"], [], ⟨none, none⟩⟩ =
      .ok (backCommand, note) := by
  rw [Registry.bindCommand, hcommand]
  exact ⟨_, rfl⟩

variable {session : Session Memory} {path : String}

private theorem moveOf_back {context : Context}
    (harguments : context.arguments = ["-"])
    (hprevious : context.previous = some path) (hsome : path ≠ "") :
    Builtin.moveOf context = some ⟨path, path, true⟩ := by
  rw [Builtin.moveOf, harguments, hprevious]
  dsimp only
  rw [if_pos rfl]
  split
  · next heq => cases heq
  · next heq => exact absurd (Option.some.inj heq) hsome
  · next heq => rw [Option.some.inj heq]

theorem outcome_runCd_back {context : Context}
    (harguments : context.arguments = ["-"]) (hmoves : context.canMove = true)
    (hprevious : context.previous = some path)
    (hdirectory : session.machine.files.isDirectory path = true) :
    outcome (Builtin.runCd owner context) session =
      outcome (do writeLine path; return .success) (arrived session path) := by
  have hsome : path ≠ "" := (FileTree.isDirectory_iff.mp hdirectory).2.1
  rw [Builtin.runCd, if_neg (by simp [harguments]), if_neg (by simp [hmoves]),
    moveOf_back harguments hprevious hsome]
  exact outcome_move hdirectory

/-- What holds from the move on. The directories of the machine are those of
before. -/
structure Returned (before : Session Memory) (path : String)
    (session : Session Memory) : Prop where
  memory : session.owner = before.owner.enter path
  grounded : before.machine.Grounded session.machine

theorem unreported_returned (before : Session Memory) (path : String) :
    Unreported (Returned before path) where
  noted _ note hsession :=
    { hsession with
      grounded := hsession.grounded.trans (Machine.grounded_note _ note) }
  errors _ _ _ hsession hwrote :=
    { hsession with
      grounded := hsession.grounded.trans (Machine.grounded_of_wrote hwrote) }

private theorem stable_returned (before : Session Memory) (path : String) :
    Session.Stable (Returned before path) := by
  intro earlier later hearlier hwrote
  constructor
  · exact hwrote.owner.trans hearlier.memory
  · exact hearlier.grounded.trans (Machine.grounded_of_sessionWrote hwrote)

private theorem returned_arrived (session : Session Memory)
    (notes : List Journal.Note) (path : String) :
    Returned session path (arrived (session.noted notes) path) :=
  ⟨rfl, Machine.grounded_noteAll _ notes⟩

theorem isDirectory_noted (hsolid : session.machine.Solid)
    (hdirectory : session.machine.files.isDirectory path = true)
    (notes : List Journal.Note) :
    (session.noted notes).machine.files.isDirectory path = true :=
  (Machine.grounded_noteAll _ notes hsolid).1.isDirectory hdirectory

theorem outcome_runCommand_back (home : String) (input : Source)
    (hprevious : session.previous = some path)
    (hdirectory : session.machine.files.isDirectory path = true) :
    outcome (runCommand owner (commands owner) home backCommand input) session =
      orElse (recover backCommand)
        (outcome (do writeLine path; return .success) (arrived session path)) := by
  have hprogram : backCommand.command.program = .builtin .cd := rfl
  rw [outcome_runCommand_builtin owner home input hprogram rfl]
  exact congrArg _ (outcome_runCd_back rfl rfl hprevious hdirectory)

/-- However the command ends, the session has moved. -/
theorem ended_back (home : String) (input : Source) (hsolid : session.machine.Solid)
    (hprevious : session.previous = some path)
    (hdirectory : session.machine.files.isDirectory path = true)
    (notes : List Journal.Note) : Ended (fun _ => Returned session path)
      (fun fault after => Returned session path after ∧ anyhow fault after)
      (outcome (runCommand owner (commands owner) home backCommand input)
        (session.noted notes)) := by
  have hunreported := unreported_returned session path
  have hwrite : Keeps (Returned session path) anyhow (writeLine path) :=
    Ensures.imp_faulty (keeps_writeLine (stable_returned session path) path :
      Keeps _ (contextIn home input session).Ends _) fun _ _ hafter =>
        ⟨hafter.1, trivial⟩
  have hprint := hwrite.bind fun _ => keeps_pure ExitCode.success
  have hback : (session.noted notes).previous = some path := hprevious
  rw [outcome_runCommand_back home input hback
    (isDirectory_noted hsolid hdirectory notes)]
  apply Ended.orElse (hprint.ended _ (returned_arrived session notes path))
  intro fault
  exact (keeps_recover hunreported _ fault).imp_pre fun _ hbefore => hbefore.1

private theorem returned_line (parsers : Parsers) (home : String) (input : Source)
    (hlive : session.cancelled = false)
    (hcommand : session.registry.lookup "cd" = some cdSchema)
    (hsolid : session.machine.Solid) (hprevious : session.previous = some path)
    (hdirectory : session.machine.files.isDirectory path = true) :
    Returned session path
      (orElse reportFailure (outcome (interpret owner parsers home input "cd -")
        session)).2 := by
  obtain ⟨note, hbind⟩ := bindCommand_back hcommand parsers
  apply Ended.after
  apply ended_single owner (commands owner) home input
    (unreported_returned session path) hlive
    parse_back hbind rfl
  exact ended_back home input hsolid hprevious hdirectory

theorem outcome_back (home : String) (input : Source)
    (hlive : session.cancelled = false) (hsolid : session.machine.Solid)
    (hprevious : session.previous = some path)
    (hdirectory : session.machine.files.isDirectory path = true)
    (htakes : session.frame.Takes) (notes : List Journal.Note) :
    ∃ out machine, session.out.writeLine (session.machine.noteAll notes) path =
      .ok (out, machine) ∧
      outcome (runCommand owner (commands owner) home backCommand input)
        (session.noted notes) =
        (.ok .success, { arrived (session.noted notes) path with
          out, machine }) := by
  have hback : (session.noted notes).previous = some path := hprevious
  have hgoing : (arrived (session.noted notes) path).cancelled = false := hlive
  have hopen : (session.noted notes).frame.Takes :=
    (unreported_frame Session.Frame.Takes).notedAll htakes notes
  have hsame : (arrived (session.noted notes) path).out.writeLine
      (arrived (session.noted notes) path).machine path =
        session.out.writeLine (session.machine.noteAll notes) path := rfl
  rw [outcome_runCommand_back home input hback
    (isDirectory_noted hsolid hdirectory notes), outcome_bind,
    outcome_writeLine path hgoing, hsame]
  rcases hwritten : session.out.writeLine (session.machine.noteAll notes) path with
    fault | ⟨out, machine⟩
  · exact absurd (Writer.writeLine_error hwritten) hopen.not_refuses
  · exact ⟨out, machine, rfl, rfl⟩

structure Equipped (terminal : Terminal) : Prop where
  sound : terminal.Sound
  oriented : terminal.Oriented
  command : terminal.registry.lookup "cd" = some cdSchema

structure Returnable (terminal : Terminal) (path : String) :
    Prop extends terminal.Equipped where
  previous : terminal.memory.previous = some path
  directory : terminal.machine.files.isDirectory path = true

variable {terminal : Terminal} {streams : Streams}

theorem Returnable.recorded (hreturnable : terminal.Returnable path) :
    ∃ memory, terminal.addHistory "cd -" = (.ok (), { terminal with memory }) ∧
      memory.whereabouts = terminal.memory.whereabouts ∧
        memory.previous = some path := by
  obtain ⟨memory, hadded⟩ := addHistory_sound hreturnable.sound "cd -"
  have hmemory : memory.whereabouts = terminal.memory.whereabouts := by
    rw [← whereabouts_addHistory terminal "cd -", hadded]
  exact ⟨memory, hadded, hmemory,
    (congrArg Whereabouts.previous hmemory).trans hreturnable.previous⟩

theorem Returnable.runOn (hreturnable : terminal.Returnable path)
    (hlive : streams.cancelled = false) :
    (terminal.runOn streams "cd -").terminal.memory.whereabouts =
        ⟨path, some terminal.memory.directory⟩ ∧
      terminal.machine.Grounded
        (terminal.runOn streams "cd -").terminal.machine := by
  obtain ⟨memory, hadded, hmemory, hprevious⟩ := hreturnable.recorded
  have hother : path ≠ terminal.memory.directory :=
    (hreturnable.oriented.previous path hreturnable.previous).2
  have hreturned : Returned ({ terminal with memory }.sessionFor streams) path _ :=
    returned_line terminal.parsers terminal.home streams.input hlive
      hreturnable.command
      hreturnable.oriented.solid hprevious hreturnable.directory
  rw [runOn_of_added (by decide) hadded]
  generalize orElse reportFailure _ = ended at hreturned ⊢
  refine ⟨?_, hreturned.grounded⟩
  calc
    Memory.whereabouts _ = (memory.enter path).whereabouts :=
      congrArg Memory.whereabouts hreturned.memory
    _ = terminal.memory.whereabouts.enter path := by rw [whereabouts_enter, hmemory]
    _ = ⟨path, some terminal.memory.directory⟩ := if_neg hother

theorem Returnable.printed (hreturnable : terminal.Returnable path)
    (hlive : streams.cancelled = false)
    (htakes : (terminal.lineFrame streams).Takes) :
    (terminal.runOn streams "cd -").result = .ok .success ∧
      (terminal.runOn streams "cd -").err = streams.err ∧
      ∃ notes, streams.out.writeLine (terminal.machine.noteAll notes) path =
        .ok ((terminal.runOn streams "cd -").out,
          (terminal.runOn streams "cd -").terminal.machine) := by
  obtain ⟨memory, hadded, -, hprevious⟩ := hreturnable.recorded
  obtain ⟨note, hbind⟩ := bindCommand_back hreturnable.command terminal.parsers
  have hsession : ({ terminal with memory }.sessionFor streams).cancelled = false :=
    hlive
  obtain ⟨notes, houtcome⟩ :=
    outcome_interpretWith_single owner (commands owner) terminal.home
    streams.input hsession parse_back hbind rfl
  obtain ⟨out, machine, hwritten, hrun⟩ :=
    outcome_back terminal.home streams.input hsession
    hreturnable.oriented.solid hprevious hreturnable.directory htakes notes
  rw [runOn_of_added (by decide) hadded, interpret, houtcome, hrun]
  exact ⟨rfl, rfl, notes, hwritten⟩

private theorem registry_operate (hsound : terminal.Sound) (operation : Operation) :
    (operation.perform terminal).2.registry = terminal.registry := by
  have hline (streams : Streams) (text : String) :
      (terminal.runOn streams text).terminal.registry = terminal.registry := by
    rcases runOn_sound hsound streams text with
      hblank | ⟨memory, result, session, hrun, hstanding, -⟩
    · rw [hblank]
    · rw [hrun]
      exact hstanding.registry
  cases operation with
  | line input cancelled text => exact hline _ text
  | lineOn streams text => exact hline streams text
  | move path =>
      rw [Operation.perform]
      rcases terminal.moveTo_cases path with
        ⟨fault, hrefused⟩ | ⟨moved, hresult, hmoved⟩
      · rw [hrefused]
      · rw [hresult]
        unfold changeDirectory at hmoved
        dsimp only at hmoved
        split at hmoved
        · cases hmoved
        · split at hmoved <;> cases hmoved <;> rfl

theorem Equipped.operate (hequipped : terminal.Equipped) (operation : Operation) :
    (operation.perform terminal).2.Equipped where
  sound := hequipped.sound.operate operation
  oriented := (travels_operation hequipped.sound hequipped.oriented
    operation).oriented
  command := by
    rw [registry_operate hequipped.sound operation]
    exact hequipped.command

/-- A terminal with none but the shell's own commands, `cd` among them, that has run
lines and has been moved by its host. In between, others may have changed the
files. -/
inductive Roamed : Terminal → Prop
  | new {machine : Machine} {config : Config} {out err : Writer}
      {registry : Registry} {builtins : Option Bool} {terminal : Terminal}
      (hmachine : machine.Startable) (hregistry : registry.BuiltinOnly)
      (hnew : Terminal.new machine config out err registry builtins = .ok terminal)
      (hcommand : terminal.registry.lookup "cd" = some cdSchema) : Roamed terminal
  | operate {terminal : Terminal} (hroamed : Roamed terminal)
      (operation : Operation) :
      Roamed (operation.perform terminal).2
  | elsewhere {terminal : Terminal} (hroamed : Roamed terminal) {machine : Machine}
      (hmachine : machine.Solid) : Roamed { terminal with machine }

private theorem Roamed.equipped (hroamed : Roamed terminal) : terminal.Equipped := by
  induction hroamed with
  | new hmachine hregistry hnew hcommand =>
      exact ⟨sound_of_new hregistry hnew, oriented_of_new hmachine hnew, hcommand⟩
  | operate _ operation ih => exact ih.operate operation
  | elsewhere _ hmachine ih =>
      exact ⟨⟨ih.sound.config, ih.sound.registry⟩,
        { ih.oriented with solid := hmachine }, ih.command⟩

theorem Returnable.again (hreturnable : terminal.Returnable path)
    (hlive : streams.cancelled = false)
    (hstands : terminal.machine.files.isDirectory terminal.memory.directory = true)
    (out err : Writer) :
    Returnable { (terminal.runOn streams "cd -").terminal with out, err }
      terminal.memory.directory := by
  obtain ⟨hplace, hgrounded⟩ := hreturnable.runOn hlive
  have hequipped := hreturnable.toEquipped.operate (.lineOn streams "cd -")
  have hsound : Sound { (terminal.runOn streams "cd -").terminal with out, err } :=
    ⟨hequipped.sound.config, hequipped.sound.registry⟩
  exact ⟨⟨hsound, { hequipped.oriented with }, hequipped.command⟩,
    congrArg Whereabouts.previous hplace,
    (hgrounded hreturnable.oriented.solid).1.isDirectory hstands⟩

/-- Going back exchanges the two directories. The new one is printed, and nothing
else, if the output is no closed file. Going back again restores both, whatever the
streams are by then. -/
theorem runOn_back_twice (hroamed : Roamed terminal)
    (hprevious : terminal.memory.previous = some path)
    (hdirectory : terminal.machine.files.isDirectory path = true) (streams : Streams)
    (hlive : streams.cancelled = false) :
    let first := terminal.runOn streams "cd -"
    first.terminal.memory.whereabouts = ⟨path, some terminal.memory.directory⟩ ∧
      ((terminal.lineFrame streams).Takes →
        first.result = .ok .success ∧ first.err = streams.err ∧
          ∃ notes, streams.out.writeLine (terminal.machine.noteAll notes) path =
            .ok (first.out, first.terminal.machine)) ∧
      (terminal.machine.files.isDirectory terminal.memory.directory = true →
        ∀ out err later, later.cancelled = false →
          ({ first.terminal with out, err }.runOn later
            "cd -").terminal.memory.whereabouts =
            terminal.memory.whereabouts) := by
  intro first
  have hreturnable : terminal.Returnable path :=
    ⟨hroamed.equipped, hprevious, hdirectory⟩
  have hplace := (hreturnable.runOn hlive).1
  refine ⟨hplace, hreturnable.printed hlive, ?_⟩
  intro hstands out err later hlater
  have hback := ((hreturnable.again hlive hstands out err).runOn hlater).1
  have hfirst : first.terminal.memory.directory = path :=
    congrArg Whereabouts.directory hplace
  calc
    _ = ⟨terminal.memory.directory, some first.terminal.memory.directory⟩ := hback
    _ = terminal.memory.whereabouts := by rw [hfirst, ← hprevious]; rfl

def upwards : Terminal := freshTerminal.perform [.move ".."]

theorem roamed_upwards : Roamed upwards := by
  have hcommand : freshTerminal.registry.lookup "cd" = some cdSchema := by rfl
  have hfresh : Roamed freshTerminal :=
    .new (Machine.startable_new _ _ _ _) builtinOnly_empty startedAs_eq hcommand
  rw [upwards, perform, List.foldl_cons, List.foldl_nil]
  exact hfresh.operate (.move "..")

theorem runOn_back_twice_upwards :
    upwards.memory.whereabouts = ⟨"/home", some "/home/user"⟩ ∧
      (let first := upwards.runLine .empty false "cd -"
      first.1 = .ok .success ∧
        first.2.memory.whereabouts = ⟨"/home/user", some "/home"⟩ ∧
        (first.2.runLine .empty false "cd -").2.memory.whereabouts =
          ⟨"/home", some "/home/user"⟩) := by
  have hroamed := roamed_upwards
  obtain ⟨hplace, hthere, hhere, hout⟩ :
      upwards.memory.whereabouts = ⟨"/home", some "/home/user"⟩ ∧
        upwards.machine.files.isDirectory "/home/user" = true ∧
        upwards.machine.files.isDirectory "/home" = true ∧
          upwards.out.handle? = none := by
    decide +kernel
  generalize upwards = terminal at hroamed hplace hthere hhere hout ⊢
  have hfrom : terminal.memory.directory = "/home" :=
    congrArg Whereabouts.directory hplace
  have htakes : (terminal.lineFrame (terminal.ownStreams .empty false)).Takes := by
    intro handle output hhandle
    have hnone : (terminal.ownStreams .empty false).out.handle? = none := hout
    exact absurd (hnone.symm.trans hhandle) (by simp)
  obtain ⟨hswapped, hprinted, hagain⟩ := runOn_back_twice hroamed
    (congrArg Whereabouts.previous hplace) hthere
      (terminal.ownStreams .empty false) rfl
  rw [hfrom] at hswapped hagain
  rw [hplace] at hagain
  have hresult := (hprinted htakes).1
  refine ⟨hplace, ?_⟩
  dsimp only [runLine]
  generalize terminal.runOn (terminal.ownStreams .empty false) "cd -" =
    first at hresult hswapped hagain ⊢
  exact ⟨hresult, hswapped, hagain hhere first.out first.err _ rfl⟩

end Terminal

end PipeShell
