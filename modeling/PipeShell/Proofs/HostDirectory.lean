import PipeShell.Proofs.PreviousDirectory

namespace PipeShell

open Channel (Source Writer)

private theorem FileTree.SameDirectories.isDirectory_eq {tree other : FileTree}
    (hsame : tree.SameDirectories other) (path : String) :
    tree.isDirectory path = other.isDirectory path := by
  have hback : other.SameDirectories tree := fun names => (hsame names).symm
  rw [Bool.eq_iff_iff]
  exact ⟨hsame.isDirectory, hback.isDirectory⟩

namespace Terminal

open Act Execution

def cdCommand (path : String) : BoundCommand :=
  { backCommand with arguments := [path] }

private theorem bindTo_cd (parsers : Parsers) (path : String) :
    ∃ note, Binding.bindTo parsers ⟨"cd", [path], [], ⟨none, none⟩⟩ cdSchema =
      .ok (cdCommand path, note) :=
  ⟨_, rfl⟩

variable {session : Session Memory} {context : Context} {path : String}

private theorem moveOf_path (harguments : context.arguments = [path])
    (hpath : path ≠ "-") :
    Builtin.moveOf context = some ⟨context.resolve path, path, false⟩ := by
  rw [Builtin.moveOf, harguments]
  exact if_neg hpath

private theorem runCd_path (harguments : context.arguments = [path])
    (hmoves : context.canMove = true) (hpath : path ≠ "-") :
    Builtin.runCd owner context = Builtin.move owner
      ⟨context.resolve path, path, false⟩ := by
  rw [Builtin.runCd, if_neg (by simp [harguments]), if_neg (by simp [hmoves]),
    moveOf_path harguments hpath]

theorem isDirectory_noted_eq (hsolid : session.machine.Solid)
    (notes : List Journal.Note) (path : String) :
    (session.noted notes).machine.files.isDirectory path =
      session.machine.files.isDirectory path :=
  ((Machine.grounded_noteAll _ notes hsolid).1.isDirectory_eq path).symm

private theorem outcome_move_of_directory {target : String} (shown : String)
    (hdirectory : session.machine.files.isDirectory target = true) :
    outcome (Builtin.move owner ⟨target, shown, false⟩) session =
      (.ok .success, arrived session target) :=
  outcome_move hdirectory

def Halting (fault : Fault) : Prop :=
  fault = .cancellation ∨ ∃ path, fault = Machine.closedFile path

private theorem halting_of_halts {fault : Fault} (hhalts : session.Halts fault) :
    Halting fault := by
  rcases hhalts with ⟨rfl, -⟩ | ⟨handle, output, -, -, -, rfl⟩
  · exact .inl rfl
  · exact .inr ⟨output.path, rfl⟩

section

variable (memory : Memory) (registry : Registry)

/-- The command has not succeeded, and the terminal has nothing new to remember. -/
def Declined (code : ExitCode) (session : Session Memory) : Prop :=
  Holding memory registry session ∧ code ≠ .success

def Halted (fault : Fault) (session : Session Memory) : Prop :=
  Holding memory registry session ∧ Halting fault

variable {memory registry}

private theorem ensures_failing (message : String) :
    Ensures (Holding memory registry) (Builtin.failing message)
      (Declined memory registry) (Halted memory registry) := by
  have hline : Keeps (Holding memory registry) (fun fault _ => Halting fault)
      (errorLine message) :=
    keeps_errorLine (fun _ _ => halting_of_halts)
      (unreported_holding memory registry).errors
      message
  exact hline.andThen fun _ => ensures_pure fun _ hbefore => ⟨hbefore, by decide⟩

private theorem ensures_move_declined {target : String} (shown : String)
    {before : Session Memory} (hbefore : Holding memory registry before)
    (hdirectory : before.machine.files.isDirectory target = false) :
    Ensures (· = before) (Builtin.move owner ⟨target, shown, false⟩)
      (Declined memory registry) (Halted memory registry) := by
  refine (ensures_files before).bind fun tree => ensures_each ?_
  rintro session ⟨hsession, rfl⟩
  subst hsession
  rw [hdirectory]
  split
  · exact (ensures_failing _).startingIn hbefore
  · exact (ensures_failing _).startingIn hbefore

theorem ensures_recover_halted (bound : BoundCommand) (fault : Fault) :
    Ensures (Halted memory registry fault) (recover bound fault)
      (Declined memory registry)
      fun fault after => Holding memory registry after ∧ anyhow fault after := by
  have hunreported := unreported_holding memory registry
  refine ensures_each fun before ⟨hbefore, hhalting⟩ => ?_
  rcases hhalting with rfl | ⟨path, rfl⟩
  · exact (ensures_throw fun _ hbefore => ⟨hbefore, trivial⟩).startingIn hbefore
  · have hreport (note : Journal.Note) (line : String) :
        Ensures (Holding memory registry)
          (do Act.note note; errorLine line; return ExitCode.runtimeError)
          (Declined memory registry)
          fun fault after => Holding memory registry after ∧ anyhow fault after :=
      (keeps_noteOf hunreported note).andThen fun _ =>
        (keeps_errorOf hunreported line).andThen fun _ =>
          ensures_pure fun _ hbefore => ⟨hbefore, by decide⟩
    exact (hreport _ _).startingIn hbefore

private theorem ensures_proceed_declined (bound : BoundCommand) (input : Source)
    (code : ExitCode) :
    Ensures (Declined memory registry code)
      (proceed 0 bound (fun _ => return .success) (code, input))
      (Declined memory registry) fun fault after => Holding memory registry after ∧
        anyhow fault after := by
  refine ensures_each fun before ⟨hbefore, hcode⟩ => ?_
  rw [proceed, if_pos hcode]
  refine Ensures.startingIn ?_ hbefore
  exact (keeps_noteOf (unreported_holding memory registry) _).andThen fun _ =>
    ensures_pure fun _ hbefore => ⟨hbefore, hcode⟩

/-- A refusal to move is what the whole run comes to. -/
theorem ended_declined (bound : BoundCommand) (input : Source) {target : String}
    (shown : String) {before : Session Memory}
    (hbefore : Holding memory registry before)
    (hdirectory : before.machine.files.isDirectory target = false) :
    Ended (Declined memory registry)
      (fun fault after => Holding memory registry after ∧ anyhow fault after)
      (andThen (fun code => proceed 0 bound (fun _ => return .success) (code, input))
        (orElse (recover bound)
          (outcome (Builtin.move owner ⟨target, shown, false⟩) before))) := by
  have hmove := (ensures_move_declined shown hbefore hdirectory).ended before rfl
  exact (hmove.orElse (ensures_recover_halted bound)).andThen
    (ensures_proceed_declined bound input)

private theorem not_success_of_declined {faulty : Fault → Session Memory → Prop}
    {result : Except Fault ExitCode × Session Memory}
    (hended : Ended (Declined memory registry)
      (fun fault after => Holding memory registry after ∧ faulty fault after)
        result) :
    result.1 ≠ .ok .success ∧ result.2.owner = memory := by
  rcases result with ⟨fault | code, after⟩
  · exact ⟨nofun, hended.1.1⟩
  · refine ⟨?_, hended.1.1⟩
    rintro ⟨⟩
    exact hended.2 rfl

end

section

variable (home : String) (input : Source) (hlive : session.cancelled = false)
  (hpath : path ≠ "-")

include hlive hpath

theorem outcome_cd :
    outcome (execute owner (commands owner) home input [cdCommand path]) session =
      andThen (fun code => proceed 0 (cdCommand path) (fun _ => return .success)
        (code, input)) (orElse (recover (cdCommand path))
          (outcome (Builtin.move owner ⟨Path.resolve path session.directory home,
            path, false⟩) (session.noted [runningNote 0 (cdCommand path)]))) := by
  have hprogram : (cdCommand path).command.program = .builtin .cd := rfl
  rw [outcome_execute_single owner (commands owner) home input hlive rfl,
    outcome_runCommand_builtin owner home input hprogram rfl]
  refine congrArg (fun act => andThen _ (orElse _ (outcome act _))) ?_
  exact runCd_path rfl rfl hpath

private theorem outcome_cd_of_directory (hsolid : session.machine.Solid)
    (hdirectory : session.machine.files.isDirectory
      (Path.resolve path session.directory home) =
      true) :
    outcome (execute owner (commands owner) home input [cdCommand path]) session =
      (.ok .success, arrived (session.noted [runningNote 0 (cdCommand path)])
        (Path.resolve path session.directory home)) := by
  -- The run is logged before the directory is looked at.
  rw [← isDirectory_noted_eq hsolid [runningNote 0 (cdCommand path)]] at hdirectory
  rw [outcome_cd home input hlive hpath, outcome_move_of_directory path hdirectory]
  rfl

private theorem declined_cd (hsolid : session.machine.Solid)
    (hdirectory : session.machine.files.isDirectory
      (Path.resolve path session.directory home) =
      false) :
    let ran := outcome (execute owner (commands owner) home input [cdCommand path])
      session
    ran.1 ≠ .ok .success ∧ ran.2.owner = session.owner := by
  have hbefore : Holding session.owner session.registry
      (session.noted [runningNote 0 (cdCommand path)]) := ⟨rfl, rfl⟩
  rw [← isDirectory_noted_eq hsolid [runningNote 0 (cdCommand path)]] at hdirectory
  rw [outcome_cd home input hlive hpath]
  -- Left as it is, the path would be evaluated when the two sides are unified.
  generalize Path.resolve path session.directory home = target at hdirectory ⊢
  exact not_success_of_declined
    (ended_declined (cdCommand path) input path hbefore hdirectory)

end

private theorem outcome_execute_cancelled (home : String) (input : Source)
    (bound : BoundCommand) (rest : BoundPipeline)
    (hcancelled : session.cancelled = true) :
    outcome (execute owner (commands owner) home input (bound :: rest)) session =
      (.error .cancellation, session) := by
  rw [execute, runStages, outcome_bind, outcome_check, if_pos hcancelled]
  rfl

variable {terminal : Terminal}

private theorem memory_absorb_arrived (terminal : Terminal) (streams : Streams)
    (notes : List Journal.Note) (target : String) :
    (terminal.absorb (arrived ((terminal.sessionFor streams).noted notes)
      target)).memory =
      terminal.memory.enter target := rfl

private theorem changeDirectory_of_directory
    (hdirectory : terminal.machine.files.isDirectory
      (Path.resolve path terminal.memory.directory terminal.home) = true) :
    ∃ moved, terminal.changeDirectory path = .ok moved ∧
      moved.memory = terminal.memory.enter
        (Path.resolve path terminal.memory.directory terminal.home) := by
  unfold changeDirectory
  dsimp only
  generalize Path.resolve path terminal.memory.directory terminal.home =
    resolved at hdirectory ⊢
  rw [if_neg (by simp [hdirectory])]
  split
  · next hsame => exact ⟨terminal, rfl, (if_pos hsame).symm⟩
  · exact ⟨_, rfl, rfl⟩

private theorem changeDirectory_of_not_directory
    (hdirectory : terminal.machine.files.isDirectory
      (Path.resolve path terminal.memory.directory terminal.home) = false) :
    ∃ fault, terminal.changeDirectory path = .error fault := by
  unfold changeDirectory
  dsimp only
  rw [if_pos (by simp [hdirectory])]
  exact ⟨_, rfl⟩

private theorem moveTo_of_error {fault : Fault}
    (hfault : terminal.changeDirectory path = .error fault) :
    terminal.moveTo path = (.error fault, terminal) := by
  unfold moveTo
  rw [hfault]

/-- The command and the call go to the same directories, and remember the same. A
token can stop the command only. -/
theorem cd_moves_like_changeDirectory (hsolid : terminal.machine.Solid)
    (hpath : path ≠ "-") (streams : Streams) :
    ∃ bound note result session,
      Binding.bindTo terminal.parsers ⟨"cd", [path], [], ⟨none, none⟩⟩ cdSchema =
        .ok (bound, note) ∧
      outcome (execute owner (commands owner) terminal.home streams.input [bound])
        (terminal.sessionFor streams) = (result, session) ∧
      (result = .ok .success ↔
        streams.cancelled = false ∧
          ∃ moved, terminal.changeDirectory path = .ok moved) ∧
      (result = .ok .success → ∀ moved, terminal.changeDirectory path = .ok moved →
        (terminal.absorb session).memory = moved.memory) ∧
      (result ≠ .ok .success → (terminal.absorb session).memory = terminal.memory) ∧
      ∀ fault, terminal.changeDirectory path = .error fault →
        terminal.moveTo path = (.error fault, terminal) := by
  obtain ⟨note, hbind⟩ := bindTo_cd terminal.parsers path
  cases hcancelled : streams.cancelled with
  | true =>
      have hstopped : (terminal.sessionFor streams).cancelled = true := hcancelled
      have hran := outcome_execute_cancelled terminal.home streams.input
        (cdCommand path) []
        hstopped
      exact ⟨_, note, _, _, hbind, hran, by simp, nofun, fun _ => rfl, fun _ =>
        moveTo_of_error⟩
  | false =>
      have hlive : (terminal.sessionFor streams).cancelled = false := hcancelled
      cases hdirectory : terminal.machine.files.isDirectory
          (Path.resolve path terminal.memory.directory terminal.home) with
      | true =>
          have hran := outcome_cd_of_directory terminal.home streams.input hlive
            hpath hsolid
            hdirectory
          obtain ⟨moved, hmoved, hmemory⟩ := changeDirectory_of_directory hdirectory
          refine ⟨_, note, _, _, hbind, hran, by simp [hmoved], ?_,
            fun hfailed => absurd rfl hfailed, fun _ => moveTo_of_error⟩
          intro _ other hother
          cases hmoved.symm.trans hother
          exact (memory_absorb_arrived terminal streams _ _).trans hmemory.symm
      | false =>
          obtain ⟨hfailed, hmemory⟩ :=
            declined_cd terminal.home streams.input hlive hpath hsolid
            hdirectory
          obtain ⟨fault, hfault⟩ := changeDirectory_of_not_directory hdirectory
          exact ⟨_, note, _, _, hbind, (Prod.eta _).symm, by simp [hfault, hfailed],
            fun hsuccess => absurd hsuccess hfailed, fun _ => hmemory, fun _ =>
              moveTo_of_error⟩

theorem cd_moves_like_changeDirectory_across :
    sampleTerminal.machine.Solid ∧ ∃ bound note result session,
      Binding.bindTo sampleTerminal.parsers ⟨"cd", ["../../a"], [], ⟨none, none⟩⟩
        cdSchema =
        .ok (bound, note) ∧
      outcome (execute owner (commands owner) sampleTerminal.home sampleStreams.input
        [bound]) (sampleTerminal.sessionFor sampleStreams) = (result, session) ∧
      result = .ok .success ∧
      (sampleTerminal.absorb session).memory.whereabouts =
        ⟨"/a", some "/home/user"⟩ := by
  have hsolid : sampleTerminal.machine.Solid :=
    (Machine.startable_new _ _ _ _).toSolid
  have hcalled : (sampleTerminal.changeDirectory "../../a").toOption.map
      (·.memory.whereabouts) =
        some ⟨"/a", some "/home/user"⟩ := by decide +kernel
  have hpath : "../../a" ≠ "-" := by decide
  obtain ⟨bound, note, result, session, hbind, hran, hiff, hsame, -⟩ :=
    cd_moves_like_changeDirectory hsolid hpath sampleStreams
  refine ⟨hsolid, bound, note, result, session, hbind, hran, ?_⟩
  cases hmoved : sampleTerminal.changeDirectory "../../a" with
  | error fault =>
      rw [hmoved] at hcalled
      cases hcalled
  | ok moved =>
      rw [hmoved] at hcalled
      have hsuccess := hiff.mpr ⟨rfl, moved, hmoved⟩
      refine ⟨hsuccess, ?_⟩
      rw [hsame hsuccess moved hmoved]
      exact Option.some.inj hcalled

end Terminal

end PipeShell
