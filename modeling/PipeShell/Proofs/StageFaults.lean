import PipeShell.Proofs.Endings
import PipeShell.Terminal

namespace PipeShell

open Channel (Source Writer)

namespace Machine

theorem outputs_note (machine : Machine) (note : Journal.Note) :
    (machine.note note).outputs = machine.outputs := by
  unfold Machine.note
  split
  · rfl
  · split
    · unfold publish
      simp only
      split <;> split <;> rfl
    · rfl

end Machine

namespace Terminal

/-- A session with this frame, in which the terminal and its commands agree about the
directory. -/
structure Runs (frame : Session.Frame) (session : Session Memory) : Prop where
  frame : session.frame = frame
  directory : session.directory = session.owner.directory

theorem Memory.directory_enter (memory : Memory) (path : String) :
    (memory.enter path).directory = path := by
  unfold Memory.enter
  split
  · next hsame => exact hsame.symm
  · rfl

private theorem Memory.directory_deleteEntry (memory : Memory) (position : Int) :
    (memory.deleteEntry position).2.directory = memory.directory := by
  unfold Memory.deleteEntry
  split <;> rfl

theorem lasting_runs (frame : Session.Frame) : owner.Lasting (Runs frame) where
  out before after hbefore hwrote :=
    ⟨hwrote.frame.trans hbefore.frame, by rw [hwrote.directory, hwrote.owner,
      hbefore.directory]⟩
  err _ _ _ hbefore hwrote :=
    ⟨(Session.frame_err hwrote).trans hbefore.frame, hbefore.directory⟩
  machine session machine hsession houtputs := by
    refine ⟨?_, hsession.directory⟩
    rw [← hsession.frame, Session.frame, Session.frame, houtputs]
  moved session path hsession := ⟨hsession.frame, (Memory.directory_enter _ _).symm⟩
  cleared clear hclear session hsession := by
    cases hclear
    exact ⟨hsession.frame, hsession.directory⟩
  deleted delete hdelete position session hsession := by
    cases hdelete
    exact ⟨hsession.frame, hsession.directory.trans
      (Memory.directory_deleteEntry _ _).symm⟩

end Terminal

namespace BoundCommand

/-- The command is to write to a path with a zero character. -/
def WritesToZero (bound : BoundCommand) (home directory : String) : Prop :=
  ∃ output, bound.redirections.stdout = some output ∧
    FileTree.hasZero (Path.resolve output.path directory home) = true

/-- The files that the command may read when the line has this input. -/
def sources (bound : BoundCommand) (home : String) (input : Source)
    (directory : String) :
    List String :=
  input.path?.toList ++
    (bound.redirections.stdin.toList ++ bound.arguments).map
      (Path.resolve · directory home)

/-- The output of the command goes to the open file: by a redirection, or because the
line writes there. -/
def WritesTo (bound : BoundCommand) (home directory : String) (out : Option Nat)
    (handle : Nat) (file : OutputFile) : Prop :=
  match bound.redirections.stdout with
  | some output => file.path = Path.resolve output.path directory home
  | none => out = some handle

/-- The command may read the file that it writes to. -/
def FeedsItself (bound : BoundCommand) (home : String) (input : Source)
    (out : Option Nat) (machine : Machine) (directory : String) : Prop :=
  ∃ handle file, machine.outputs[handle]? = some file ∧
    bound.WritesTo home directory out handle file ∧
      ∃ path ∈ bound.sources home input directory,
        machine.files.openForReading path = .ok file.names

end BoundCommand

def Fault.Reported (fault : Fault) : Prop :=
  fault.OfKind .parse ∨ fault.OfKind .bind ∨ fault.OfKind .runtime

namespace Execution

open Act
open Terminal (Memory Runs)

/-- The faults that stages can end in, with the input and the output of their
line. -/
inductive Stops (home : String) (input : Source) (out : Option Nat)
    (pipeline : BoundPipeline) :
    Fault → Session Memory → Prop
  | cancelled {session : Session Memory} (hcancelled : session.cancelled = true) :
      Stops home input out pipeline .cancellation session
  | reported {fault : Fault} {session : Session Memory} (hfault : fault.Reported) :
      Stops home input out pipeline fault session
  | zero {session : Session Memory} (bound : BoundCommand)
      (hbound : bound ∈ pipeline)
      (hzero : bound.WritesToZero home session.directory) :
      Stops home input out pipeline .zeroInPath session
  | endless {session : Session Memory} (bound : BoundCommand)
      (hbound : bound ∈ pipeline)
      (hfeeds : bound.FeedsItself home input out session.machine session.directory) :
      Stops home input out pipeline .endless session

variable {home : String} {input : Source} {out : Option Nat}
  {pipeline : BoundPipeline}

private theorem reported_of_refuses {writer : Writer} {machine : Machine}
    {fault : Fault} (hrefuses : writer.Refuses machine fault) : fault.Reported := by
  obtain ⟨handle, output, -, -, -, rfl⟩ := hrefuses
  exact .inr (.inr ⟨_, rfl, rfl⟩)

theorem stops_of_halts (fault : Fault) (session : Session Memory)
    (hhalts : session.Halts fault) :
    Stops home input out pipeline fault session := by
  rcases hhalts with ⟨rfl, hcancelled⟩ | hrefuses
  · exact .cancelled hcancelled
  · exact .reported (reported_of_refuses hrefuses)

theorem getElem?_closeOutput {machine : Machine} {handle : Nat} {file : OutputFile}
    (hfile : machine.outputs[handle]? = some file) (closing : Nat) :
    ∃ closed, (machine.closeOutput closing).outputs[handle]? =
      some { file with closed } := by
  unfold Machine.closeOutput
  split
  · exact ⟨file.closed, hfile⟩
  · next other hother =>
      rw [Machine.setOutput, List.getElem?_set]
      by_cases hsame : closing = handle
      · subst hsame
        rw [hfile] at hother
        cases hother
        have hlength := (List.getElem?_eq_some_iff.mp hfile).1
        exact ⟨true, by simp [hlength]⟩
      · exact ⟨file.closed, by simp [hsame, hfile]⟩

theorem files_closeOutput (machine : Machine) (closing : Nat) :
    (machine.closeOutput closing).files = machine.files := by
  unfold Machine.closeOutput
  split <;> rfl

theorem Stops.close {fault : Fault} {session : Session Memory}
    (hstops : Stops home input out pipeline fault session) (outlet : Outlet) :
    Stops home input out pipeline fault (outlet.close session) := by
  cases outlet with
  | own => exact hstops
  | pipe => exact hstops
  | file closing =>
      cases hstops with
      | cancelled hcancelled => exact .cancelled hcancelled
      | reported hfault => exact .reported hfault
      | zero bound hbound hzero => exact .zero bound hbound hzero
      | endless bound hbound hfeeds =>
          obtain ⟨handle, file, hfile, hwrites, path, hpath, hopen⟩ := hfeeds
          obtain ⟨closed, hclosed⟩ := getElem?_closeOutput hfile closing
          refine .endless bound hbound ⟨handle, _, hclosed, hwrites, path, hpath, ?_⟩
          rw [Outlet.close, files_closeOutput]
          exact hopen

private theorem Stops.withOutput {fault : Fault} {session : Session Memory}
    (hstops : Stops home input out pipeline fault session) (writer : Writer) :
    Stops home input out pipeline fault { session with out := writer } := by
  cases hstops with
  | cancelled hcancelled => exact .cancelled hcancelled
  | reported hfault => exact .reported hfault
  | zero bound hbound hzero => exact .zero bound hbound hzero
  | endless bound hbound hfeeds => exact .endless bound hbound hfeeds

def stageContext (home : String) (bound : BoundCommand) (source : Source)
    (session : Session Memory) : Context :=
  { input := source
    arguments := bound.arguments
    directory := session.directory
    home
    previous := session.previous
    history := session.owner.history
    canMove := true }

variable {frame : Session.Frame} {context : Context}

private theorem keeps_note {faulty : Fault → Session Memory → Prop}
    (note : Journal.Note) :
    Keeps (Runs frame) faulty (Act.note note) :=
  ensures_modify fun _ hbefore =>
    (Terminal.lasting_runs frame).machine _ _ hbefore (Machine.outputs_note _ note)

private theorem ensures_recover
    (hendless : ∀ session, Runs frame session → context.Feeds session →
      Stops home input out pipeline .endless session)
    (bound : BoundCommand) (fault : Fault) :
    Ensures (fun session => Runs frame session ∧ context.Ends fault session)
      (recover bound fault) (fun _ => Runs frame)
      fun fault after => Runs frame after ∧
        Stops home input out pipeline fault after := by
  have hreport : ∀ note line (code : ExitCode),
      Keeps (Runs frame) (Stops home input out pipeline)
        (Act.note note >>= fun _ => errorLine line >>= fun _ => pure code) :=
    fun note line code => (keeps_note note).bind fun _ =>
      (keeps_errorLine stops_of_halts
        (Terminal.lasting_runs frame).err line).bind fun _ => keeps_pure code
  cases fault with
  | cancelled message =>
      refine ensures_throw fun session ⟨hruns, hmessage, hcancelled⟩ => ⟨hruns, ?_⟩
      subst hmessage
      exact .cancelled hcancelled
  | endless =>
      exact ensures_throw fun session ⟨hruns, hfeeds⟩ =>
        ⟨hruns, hendless session hruns hfeeds⟩
  | _ => exact Ensures.imp_pre (hreport _ _ _) fun _ hbefore => hbefore.1

private theorem ensures_runCommand (start : Session Memory)
    (hstart : start.directory = start.owner.directory) {bound : BoundCommand}
    {builtin : Builtin} (hbuiltin : bound.command.program = .builtin builtin)
    {source : Source} (hendless : ∀ session, Runs start.frame session →
      (stageContext home bound source start).Feeds session →
        Stops home input out pipeline .endless session) :
    Ensures (· = start) (runCommand Terminal.owner (commands Terminal.owner) home
      bound source) (fun _ => Runs start.frame)
      fun fault after => Runs start.frame after ∧
        Stops home input out pipeline fault after := by
  refine ensures_session_bind ?_
  rintro _ rfl
  refine ensures_tryCatch ?_ (ensures_recover hendless bound)
  exact (bound.command.ensures_run (Terminal.lasting_runs _) _ hbuiltin).startingIn
    ⟨⟨rfl, hstart⟩, rfl⟩

/-- A session of a line that began with this frame. Since then only files may have
been opened. -/
structure Standing (origin : Session.Frame) (session : Session Memory) : Prop where
  cancelled : session.cancelled = origin.cancelled
  registry : session.registry = origin.registry
  out : session.out.handle? = origin.out
  err : session.err.handle? = origin.err
  agrees : session.directory = session.owner.directory

structure Begins (origin : Session.Frame) (directory : String)
    (session : Session Memory) : Prop
    extends Standing origin session where
  here : session.directory = directory

variable {origin : Session.Frame} {directory : String}
  {start session : Session Memory}
  {faulty : Fault → Session Memory → Prop}

private theorem Standing.of_runs (hstart : Standing origin start)
    (hruns : Runs start.frame session) :
    Standing origin session where
  cancelled := (congrArg Session.Frame.cancelled hruns.frame).trans hstart.cancelled
  registry := (congrArg Session.Frame.registry hruns.frame).trans hstart.registry
  out := (congrArg Session.Frame.out hruns.frame).trans hstart.out
  err := (congrArg Session.Frame.err hruns.frame).trans hstart.err
  agrees := hruns.directory

theorem stableForErrors_standing : Session.StableForErrors (Standing origin) :=
  fun _ _ _ hbefore hwrote =>
    { hbefore with err := hwrote.handle.trans hbefore.err }

theorem keeps_note_standing (note : Journal.Note) :
    Keeps (Standing origin) faulty (Act.note note) :=
  ensures_modify fun _ hbefore => { hbefore with }

private theorem keeps_note_begins (note : Journal.Note) :
    Keeps (Begins origin directory) faulty (Act.note note) :=
  ensures_modify fun _ hbefore => { hbefore with }

theorem ensures_resolve (path : String) :
    Ensures (Begins origin directory) (resolve home path)
      (fun resolved after => Begins origin directory after ∧
        resolved = Path.resolve path directory home) faulty := by
  refine ensures_session_bind fun before hbefore => ensures_pure ?_
  rintro _ rfl
  exact ⟨hbefore, by rw [hbefore.here]⟩

private theorem ensures_stageInput (bound : BoundCommand) (index : Nat)
    {current : Source} (hcurrent : ∀ path, current.path? = some path →
      input.path? = some path) :
    Ensures (Begins origin directory) (stageInput home bound index current)
      (fun found after => Begins origin directory after ∧
        ∀ source, found = .ok source →
        ∀ path, source.path? = some path → path ∈ bound.sources home input directory)
      fun fault after => Begins origin directory after ∧ faulty fault after := by
  have hinput : ∀ path, current.path? = some path →
      path ∈ bound.sources home input directory := by
    intro path hpath
    rw [BoundCommand.sources, hcurrent path hpath]
    exact List.mem_append_left _ (List.mem_singleton.mpr rfl)
  have hown : Ensures (Begins origin directory)
      (pure (.ok current) : Act Memory (Except String Source))
      (fun found after => Begins origin directory after ∧
        ∀ source, found = .ok source →
        ∀ path, source.path? = some path → path ∈ bound.sources home input directory)
      (fun fault after => Begins origin directory after ∧ faulty fault after) := by
    refine ensures_pure fun _ hbefore => ⟨hbefore, ?_⟩
    rintro _ ⟨⟩
    exact hinput
  unfold stageInput
  cases hstdin : bound.redirections.stdin with
  | none => exact hown
  | some path =>
      by_cases hindex : index ≠ 0
      · simp only [if_pos hindex]
        exact (keeps_note_begins _).andThen fun _ => hown
      · simp only [if_neg hindex]
        refine (ensures_resolve path).bind fun resolved =>
          ensures_each fun before ⟨hbefore, hresolved⟩ => ?_
        refine (Ensures.bind keeps_files fun tree => ?_).startingIn hbefore
        split
        · refine ensures_pure fun _ hbefore => ⟨hbefore, ?_⟩
          rintro _ ⟨⟩ other hother
          have hsame : resolved = other := Option.some.inj hother
          rw [← hsame, hresolved, BoundCommand.sources, hstdin]
          exact List.mem_append_right _ (List.mem_map_of_mem List.mem_cons_self)
        · refine ensures_pure fun _ hbefore => ⟨hbefore, ?_⟩
          rintro _ ⟨⟩

def Directed (home directory : String) (bound : BoundCommand) :
    Outlet → Session Memory → Prop
  | .file handle, session => ∃ output file, bound.redirections.stdout = some output ∧
      session.machine.outputs[handle]? = some file ∧
        file.path = Path.resolve output.path directory home
  | _, _ => bound.redirections.stdout = none

private theorem openOutput_ok {machine machine' : Machine} {path : String}
    {append : Bool} {handle : Nat}
    (hopen : machine.openOutput path append = .ok (machine', handle)) :
    ∃ file, machine'.outputs[handle]? = some file ∧ file.path = path := by
  unfold Machine.openOutput at hopen
  split at hopen
  · cases hopen
  · split at hopen
    · cases hopen
    · cases hopen
      exact ⟨_, List.getElem?_concat_length, rfl⟩

private theorem openOutput_error {machine : Machine} {path : String} {append : Bool}
    {fault : Fault} (hopen : machine.openOutput path append = .error fault) :
    (∃ cause, fault = .failure cause) ∨ fault = .zeroInPath ∧
      FileTree.hasZero path = true := by
  unfold Machine.openOutput at hopen
  split at hopen
  · next hzero =>
      cases hopen
      exact .inr ⟨rfl, hzero⟩
  · split at hopen
    · cases hopen
      exact .inl ⟨_, rfl⟩
    · cases hopen

private theorem ensures_stageOutput {bound : BoundCommand}
    (hbound : bound ∈ pipeline) (isLast : Bool) :
    Ensures (Begins origin directory) (stageOutput home bound isLast)
      (fun found after => Begins origin directory after ∧
        ∀ outlet, found = .ok outlet → Directed home directory bound outlet after)
      fun fault after => Begins origin directory after ∧
        Stops home input out pipeline fault after := by
  unfold stageOutput
  cases hstdout : bound.redirections.stdout with
  | none =>
      refine ensures_pure fun _ hbefore => ⟨hbefore, ?_⟩
      rintro _ ⟨⟩
      cases isLast <;> exact hstdout
  | some output =>
      refine (ensures_resolve output.path).bind fun resolved => ?_
      refine ensures_session_bind fun before ⟨hbefore, hresolved⟩ => ?_
      cases hopen : before.machine.openOutput resolved output.append with
      | ok opened =>
          obtain ⟨machine, handle⟩ := opened
          obtain ⟨file, hfile, hpath⟩ := openOutput_ok hopen
          constructor
          rintro _ rfl
          refine ⟨{ hbefore with }, ?_⟩
          rintro _ ⟨⟩
          exact ⟨output, file, hstdout, hfile, hpath.trans hresolved⟩
      | error fault =>
          rcases openOutput_error hopen with ⟨cause, rfl⟩ | ⟨rfl, hzero⟩
          · refine ensures_pure ?_
            rintro _ rfl
            refine ⟨hbefore, ?_⟩
            rintro _ ⟨⟩
          · refine ensures_throw ?_
            rintro _ rfl
            refine ⟨hbefore, .zero bound hbound ⟨output, hstdout, ?_⟩⟩
            rw [hbefore.here, ← hresolved]
            exact hzero

/-- A command that reads the output of its stage reads what it writes, wherever its
stage has been directed to. -/
theorem feedsItself_of_feeds {bound : BoundCommand} {source : Source}
    (hhere : start.directory = directory)
    (hsource : ∀ path, source.path? = some path →
      path ∈ bound.sources home input directory)
    (hwrites : ∀ handle file, start.frame.out = some handle →
      start.frame.outputs[handle]? = some file →
        bound.WritesTo home directory out handle file)
    (hruns : Runs start.frame session)
    (hfeeds : (stageContext home bound source start).Feeds session) :
    bound.FeedsItself home input out session.machine session.directory := by
  obtain ⟨hdirectory, path, hpath, names, hopen, handle, lasting, hout, hlasting,
    hnames⟩ := hfeeds
  have hsame : session.directory = directory := hdirectory.trans hhere
  -- The frame knows files only up to where they have been written to.
  obtain ⟨file, hfile, rfl⟩ : ∃ file, session.machine.outputs[handle]? = some file ∧
      file.lasting = lasting := by
    rw [Session.frame, List.getElem?_map, Option.map_eq_some_iff] at hlasting
    exact hlasting
  have hto := hwrites handle file.lasting (hruns.frame ▸ hout)
    (hruns.frame ▸ hlasting)
  rw [hsame]
  refine ⟨handle, file, hfile, hto, path, ?_, hnames ▸ hopen⟩
  rcases List.mem_append.mp hpath with hinput | hresolved
  · exact hsource path (Option.mem_toList.mp hinput)
  · obtain ⟨argument, hargument, hpath⟩ := List.mem_map.mp hresolved
    rw [← hpath, Context.resolve, BoundCommand.sources, ← hhere]
    exact List.mem_append_right _
      (List.mem_map_of_mem (List.mem_append_right _ hargument))

private theorem ensures_stageCommand (given : Session Memory)
    (hhere : given.directory = directory)
    (hagrees : given.directory = given.owner.directory) {bound : BoundCommand}
    (hbound : bound ∈ pipeline) {builtin : Builtin}
    (hbuiltin : bound.command.program = .builtin builtin) {source : Source}
    (hsource : ∀ path, source.path? = some path →
      path ∈ bound.sources home input directory) (hwrites :
      ∀ handle file, given.frame.out = some handle →
      given.frame.outputs[handle]? = some file →
        bound.WritesTo home directory out handle file) :
    Ensures (· = given) (runCommand Terminal.owner (commands Terminal.owner) home
      bound source) (fun _ => Runs given.frame)
      fun fault after => Runs given.frame after ∧
        Stops home input out pipeline fault after :=
  ensures_runCommand given hagrees hbuiltin fun _ hruns hfeeds =>
    .endless bound hbound (feedsItself_of_feeds hhere hsource hwrites hruns hfeeds)

theorem Standing.takeBack {writer : Writer} (hstart : Standing origin start)
    (hruns : Runs { start with out := writer }.frame session) :
    Standing origin { session with out := start.out } where
  cancelled := (congrArg Session.Frame.cancelled hruns.frame).trans hstart.cancelled
  registry := (congrArg Session.Frame.registry hruns.frame).trans hstart.registry
  out := hstart.out
  err := (congrArg Session.Frame.err hruns.frame).trans hstart.err
  agrees := hruns.directory

private theorem path?_handedOver (writer : Writer) :
    (handedOver writer).path? = none := by
  cases writer <;> rfl

private theorem ensures_onStage {bound : BoundCommand} (hbound : bound ∈ pipeline)
    {builtin : Builtin} (hbuiltin : bound.command.program = .builtin builtin)
    {source : Source} (hsource : ∀ path, source.path? = some path →
      path ∈ bound.sources home input directory)
    (current : Source) {outlet : Outlet} (hbegins : Begins origin directory start)
    (hdirected : Directed home directory bound outlet start) :
    Ensures (· = start)
      (onStage outlet current
        (runCommand Terminal.owner (commands Terminal.owner) home bound source))
      (fun ended after => Standing origin after ∧
        (ended.2 = current ∨ ended.2.path? = none))
      fun fault after => Standing origin after ∧
        Stops home input origin.out pipeline fault after := by
  have hgiven : ∀ writer, (∀ handle file, Writer.handle? writer = some handle →
        start.frame.outputs[handle]? = some file →
          bound.WritesTo home directory origin.out handle file) →
      Ensures (· = start) (withOutput writer
          (runCommand Terminal.owner (commands Terminal.owner) home bound source))
        (fun _ => Standing origin)
        fun fault after => Standing origin after ∧
          Stops home input origin.out pipeline fault after := fun writer hwrites =>
    ensures_withOutput
      (ensures_stageCommand { start with out := writer } hbegins.here hbegins.agrees
        hbound hbuiltin hsource hwrites)
      (fun _ _ hafter => hbegins.takeBack hafter)
      fun _ _ hafter => ⟨hbegins.takeBack hafter.1, hafter.2.withOutput start.out⟩
  cases outlet with
  | own =>
      have howns : ∀ handle file, start.frame.out = some handle →
          start.frame.outputs[handle]? = some file →
            bound.WritesTo home directory origin.out handle file := by
        intro handle file hhandle _
        rw [BoundCommand.WritesTo, hdirected]
        exact hbegins.out.symm.trans hhandle
      have hown := ensures_stageCommand start hbegins.here hbegins.agrees hbound
        hbuiltin hsource
        howns
      refine (hown.imp (fun _ hbefore => hbefore) (fun _ _ hafter =>
        hbegins.of_runs hafter) fun _ _ hafter =>
          ⟨hbegins.of_runs hafter.1, hafter.2⟩).bind fun code => ?_
      exact ensures_pure fun _ hbefore => ⟨hbefore, .inl rfl⟩
  | pipe =>
      have hnowhere : ∀ handle file, (Writer.lines .empty).handle? = some handle →
          start.frame.outputs[handle]? = some file →
            bound.WritesTo home directory origin.out handle file := by
        intro handle file hhandle
        cases hhandle
      exact (hgiven _ hnowhere).bind fun (_, written) =>
        ensures_pure fun _ hbefore =>
        ⟨hbefore, .inr (path?_handedOver written)⟩
  | file opened =>
      obtain ⟨output, file, hstdout, hfile, hpath⟩ := hdirected
      have hthere : ∀ handle file, (Writer.file opened).handle? = some handle →
          start.frame.outputs[handle]? = some file →
            bound.WritesTo home directory origin.out handle file := by
        intro handle lasting hhandle hlasting
        cases hhandle
        rw [Session.frame, List.getElem?_map, hfile] at hlasting
        cases hlasting
        rw [BoundCommand.WritesTo, hstdout]
        exact hpath
      exact (hgiven _ hthere).bind fun _ => ensures_pure fun _ hbefore =>
        ⟨hbefore, .inl rfl⟩

private theorem Standing.close (hstanding : Standing origin session)
    (outlet : Outlet) :
    Standing origin (outlet.close session) := by
  cases outlet with
  | own => exact hstanding
  | pipe => exact hstanding
  | file handle => exact { hstanding with }

private theorem Directed.note {bound : BoundCommand} {outlet : Outlet}
    (hdirected : Directed home directory bound outlet session)
    (note : Journal.Note) :
    Directed home directory bound outlet
      { session with machine := session.machine.note note } := by
  cases outlet with
  | own => exact hdirected
  | pipe => exact hdirected
  | file handle =>
      obtain ⟨output, file, hstdout, hfile, hpath⟩ := hdirected
      exact ⟨output, file, hstdout, by rw [Machine.outputs_note, hfile], hpath⟩

private theorem ensures_stage {bound : BoundCommand} (hbound : bound ∈ pipeline)
    {builtin : Builtin} (hbuiltin : bound.command.program = .builtin builtin)
    {source current : Source}
    (hsource : ∀ path, source.path? = some path →
      path ∈ bound.sources home input directory) (hcurrent :
      ∀ path, current.path? = some path → input.path? = some path) (index : Nat)
    {outlet : Outlet} (hbegins : Begins origin directory start)
    (hdirected : Directed home directory bound outlet start)
    {rest : Source → Act Memory ExitCode}
    (hrest : ∀ next : Source,
      (∀ path, next.path? = some path → input.path? = some path) →
      Keeps (Standing origin) (Stops home input origin.out pipeline) (rest next)) :
    Ensures (· = start)
      (do
        Act.note (runningNote index bound)
        let ended ← onStage outlet current
          (runCommand Terminal.owner (commands Terminal.owner) home bound source)
        proceed index bound rest ended)
      (fun _ => Standing origin)
      fun fault after => Standing origin after ∧
        Stops home input origin.out pipeline fault after := by
  have hnote : Ensures (· = start) (Act.note (runningNote index bound))
      (fun _ after => Begins origin directory after ∧
        Directed home directory bound outlet after)
      (fun fault after => Standing origin after ∧
        Stops home input origin.out pipeline fault after) := by
    refine ensures_modify ?_
    rintro _ rfl
    exact ⟨{ hbegins with }, hdirected.note _⟩
  refine hnote.bind fun _ => ensures_each fun before ⟨hbefore, hdirected⟩ => ?_
  refine (ensures_onStage hbound hbuiltin hsource current hbefore hdirected).bind
    fun (code, next) => ?_
  refine ensures_each fun ended ⟨hended, hnext⟩ => Ensures.startingIn ?_ hended
  rw [proceed]
  split
  · exact (keeps_note_standing _).andThen fun _ => keeps_pure _
  · refine hrest next fun path hpath => ?_
    rcases hnext with hsame | hnone
    · exact hcurrent path (hsame ▸ hpath)
    · rw [hnone] at hpath
      cases hpath

theorem keeps_runStages {stages : BoundPipeline}
    (hbuiltin : ∀ bound ∈ stages, ∃ builtin,
      bound.command.program = .builtin builtin)
    (hstages : stages ⊆ pipeline) (index : Nat) {current : Source}
    (hcurrent : ∀ path, current.path? = some path → input.path? = some path) :
    Keeps (Standing origin) (Stops home input origin.out pipeline)
      (runStages Terminal.owner (commands Terminal.owner) home index current
        stages) := by
  -- The line stands as it began between stages; within one it only stays in its
  -- directory until the command runs.
  induction stages generalizing index current with
  | nil => exact keeps_pure _
  | cons bound rest ih =>
      obtain ⟨⟨builtin, hprogram⟩, hrest⟩ := List.forall_mem_cons.mp hbuiltin
      obtain ⟨hbound, hmore⟩ := List.cons_subset.mp hstages
      have hreport : ∀ line (code : ExitCode),
          Keeps (Standing origin) (Stops home input origin.out pipeline)
            (errorLine line >>= fun _ => pure code) := fun line code =>
        (keeps_errorLine stops_of_halts stableForErrors_standing line).bind fun _ =>
          keeps_pure code
      rw [runStages]
      refine Keeps.andThen (keeps_check stops_of_halts) fun _ => ?_
      refine ensures_each fun start hstart => ?_
      have hbegins : Begins origin start.directory start := ⟨hstart, rfl⟩
      refine Ensures.startingIn ?_ hbegins
      refine ((ensures_stageInput bound index hcurrent).imp_faulty fun _ _ hafter =>
        ⟨hafter.1.toStanding, hafter.2⟩).bind fun found =>
          ensures_each fun before ⟨hbefore, hsource⟩ => ?_
      cases found with
      | error missing => exact (hreport _ _).startingIn hbefore.toStanding
      | ok source =>
          refine Ensures.startingIn ?_ hbefore
          refine ((ensures_stageOutput hbound rest.isEmpty).imp_faulty
            fun _ _ hafter =>
            ⟨hafter.1.toStanding, hafter.2⟩).bind fun found =>
              ensures_each fun before ⟨hbefore, hdirected⟩ => ?_
          cases found with
          | error cause => exact (hreport _ _).startingIn hbefore.toStanding
          | ok outlet =>
              have hbody := ensures_stage hbound hprogram (hsource source rfl)
                hcurrent index
                hbefore (hdirected outlet rfl) fun next hnext =>
                  ih hrest hmore (index + 1) hnext
              exact ensures_afterwards hbody (fun _ _ hafter => hafter.close outlet)
                fun _ _ hafter => ⟨hafter.1.close outlet, hafter.2.close outlet⟩

end Execution

end PipeShell
