import PipeShell.Proofs.DirectoryTree
import PipeShell.Proofs.FileCopies
import PipeShell.Proofs.Refusals

namespace PipeShell

open Channel (Source fileLines?)

namespace FileTree

/-- The trees agree about directories, and about every other name that is not set
apart. -/
structure AgreesBut (apart : List String → Prop) (tree other : FileTree) : Prop where
  directories : tree.SameDirectories other
  nodes : ∀ names, ¬ apart names → other.get? names = tree.get? names

variable {tree other third opened : FileTree} {path : String}
  {names target : List String}
  {apart more : List String → Prop}

private theorem AgreesBut.trans (hfirst : tree.AgreesBut apart other)
    (hsecond : other.AgreesBut more third) :
    tree.AgreesBut (fun names => apart names ∨ more names) third where
  directories := hfirst.directories.trans hsecond.directories
  nodes names hother := by
    rw [not_or] at hother
    rw [hsecond.nodes names hother.2, hfirst.nodes names hother.1]

private theorem AgreesBut.imp (hagrees : tree.AgreesBut apart other)
    (himp : ∀ names, apart names → more names) : tree.AgreesBut more other where
  directories := hagrees.directories
  nodes names hother := hagrees.nodes names (mt (himp names) hother)

private theorem AgreesBut.walk (hagrees : tree.AgreesBut apart other)
    {current parts : List String} {node : Node} (hplain : ¬ apart names)
    (hwalk : tree.walk current parts = .ok (names, node)) :
    other.walk current parts = .ok (names, node) := by
  induction parts generalizing current with
  | nil =>
      obtain ⟨rfl, hget⟩ := walk_nil_ok hwalk
      rw [FileTree.walk, hagrees.nodes current hplain, hget]
  | cons part rest ih =>
      obtain ⟨hdirectory, next, henter, hrest⟩ := walk_cons_ok hwalk
      rw [walk_cons ((hagrees.directories current).mp hdirectory), henter]
      exact ih hrest

theorem SameDirectories.place (hsame : tree.SameDirectories other)
    {parent : List String} {name : String}
    (hplace : tree.place path = .ok (parent, name)) :
    other.place path = .ok (parent, name) := by
  obtain ⟨front, hparts, hwalk, henter⟩ := place_ok_iff.mp hplace
  exact place_ok_iff.mpr ⟨front, hparts, hsame.walk hwalk, henter⟩

theorem AgreesBut.openForReading (hagrees : tree.AgreesBut apart other)
    (hplain : ¬ apart names) (hopen : tree.openForReading path = .ok names) :
    other.openForReading path = .ok names := by
  obtain ⟨hpath, content, hwalk⟩ := openForReading_eq_ok.mp hopen
  exact openForReading_eq_ok.mpr ⟨hpath, content, hagrees.walk hplain hwalk⟩

theorem AgreesBut.read? (hagrees : tree.AgreesBut apart other)
    (hplain : ¬ apart names) (hopen : tree.openForReading path = .ok names) :
    other.read? path = tree.read? path := by
  rw [FileTree.read?, FileTree.read?, hopen, hagrees.openForReading hplain hopen]
  simp only [Except.toOption, Option.map_some, FileTree.content,
    hagrees.nodes names hplain]

theorem openForWriting_append_eq_ok :
    tree.openForWriting path true = .ok (opened, target) ↔
      (∃ parent name, tree.place path = .ok (parent, name) ∧
        target = parent ++ [name]) ∧
        ((∃ content, tree.get? target = some (.file content) ∧ opened = tree) ∨
          (tree.get? target = none ∧ opened = tree.set target (.file []))) := by
  unfold openForWriting
  rcases tree.place path with fault | ⟨parent, name⟩
  · simp
  · have htarget : (∃ above last,
        Except.ok (parent, name) = (.ok (above, last) : Except Fault _) ∧
          target = above ++ [last]) ↔ target = parent ++ [name] := by
      constructor
      · rintro ⟨_, _, ⟨⟩, rfl⟩
        rfl
      · rintro rfl
        exact ⟨parent, name, rfl, rfl⟩
    rw [htarget]
    dsimp only
    constructor
    · intro hopen
      split at hopen
      · cases hopen
      · next content hget =>
          cases hopen
          exact ⟨rfl, .inl ⟨content, hget, rfl⟩⟩
      · next hget =>
          cases hopen
          exact ⟨rfl, .inr ⟨hget, rfl⟩⟩
    · rintro ⟨rfl, ⟨content, hget, rfl⟩ | ⟨hget, rfl⟩⟩
      · rw [hget]
        rfl
      · rw [hget]

private theorem agreesBut_openForWriting
    (hopen : tree.openForWriting path true = .ok (opened, target)) :
    tree.AgreesBut (fun names => names = target ∧ tree.get? names = none)
      opened where
  directories := (sameDirectories_openForWriting hopen).1
  nodes names hother := by
    rcases (openForWriting_append_eq_ok.mp hopen).2 with ⟨_, _, rfl⟩ | ⟨hnone, rfl⟩
    · rfl
    · refine get?_set_of_ne (fun hsame => hother ⟨hsame, ?_⟩) _
      rw [hsame, hnone]

private theorem get?_openForWriting
    (hopen : tree.openForWriting path true = .ok (opened, target)) :
    opened.get? target = some ((tree.get? target).getD (.file [])) := by
  obtain ⟨⟨parent, name, -, htarget⟩, hcases⟩ := openForWriting_append_eq_ok.mp hopen
  rcases hcases with ⟨content, hget, rfl⟩ | ⟨hnone, rfl⟩
  · rw [hget]
    rfl
  · rw [hnone, get?_set_self (by simp [htarget])]
    rfl

private theorem AgreesBut.openForWriting (hagrees : tree.AgreesBut apart other)
    (hplain : ¬ apart target)
    (hopen : tree.openForWriting path true = .ok (opened, target)) :
    ∃ opened', other.openForWriting path true = .ok (opened', target) := by
  obtain ⟨⟨parent, name, hplace, htarget⟩, hcases⟩ :=
    openForWriting_append_eq_ok.mp hopen
  have hplace' := hagrees.directories.place hplace
  have hnode := hagrees.nodes target hplain
  rcases hcases with ⟨content, hget, -⟩ | ⟨hnone, -⟩
  · exact ⟨other, openForWriting_append_eq_ok.mpr
      ⟨⟨parent, name, hplace', htarget⟩, .inl ⟨content, hnode.trans hget, rfl⟩⟩⟩
  · exact ⟨_, openForWriting_append_eq_ok.mpr
      ⟨⟨parent, name, hplace', htarget⟩, .inr ⟨hnode.trans hnone, rfl⟩⟩⟩

theorem AgreesBut.fedBack (hagrees : tree.AgreesBut apart other) {grown : Prop}
    {paths : List String} (hpaths : ∀ path ∈ paths, ∃ names, ¬ apart names ∧
      tree.openForReading path = .ok names) :
    other.FedBack target grown paths ↔ tree.FedBack target grown paths := by
  induction paths generalizing grown with
  | nil => exact iff_of_false fedBack_nil fedBack_nil
  | cons path rest ih =>
      obtain ⟨⟨names, hplain, hopen⟩, hrest⟩ := List.forall_mem_cons.mp hpaths
      rw [fedBack_cons, fedBack_cons, hagrees.openForReading hplain hopen, hopen,
        hagrees.read? hplain hopen, ih hrest]

end FileTree

namespace Machine

variable {machine : Machine} {path : String} {target : List String}
  {created : FileTree}

private theorem agreesBut_noteAll (hsolid : machine.Solid)
    (notes : List Journal.Note) :
    machine.files.AgreesBut (fun names => machine.journalFile = some names)
      (machine.noteAll notes).files :=
  ⟨(grounded_noteAll machine notes hsolid).1, fun names =>
    (quiet_noteAll machine notes).files names⟩

/-- The names that may change when a file is opened for more to be added: that of the
journal, and that of the file if there was none. -/
def Unsettled (machine : Machine) (target names : List String) : Prop :=
  machine.journalFile = some names ∨ names = target ∧ machine.files.get? names = none

private theorem not_unsettled {names : List String}
    (hopen : machine.files.openForReading path = .ok names)
    (hjournal : machine.journalFile ≠ some names) :
    ¬ machine.Unsettled target names := by
  obtain ⟨-, content, hwalk⟩ := FileTree.openForReading_eq_ok.mp hopen
  rintro (hnames | ⟨-, hnone⟩)
  · exact hjournal hnames
  · cases (FileTree.get?_of_walk hwalk).symm.trans hnone

private theorem openOutput_append (hzero : FileTree.hasZero path = false)
    (hopen : machine.files.openForWriting path true = .ok (created, target)) :
    ∃ opened, machine.openOutput path true = .ok (opened, machine.outputs.length) ∧
      opened.files = created ∧ opened.journalFile = machine.journalFile ∧
      opened.outputs = machine.outputs ++ [⟨path, target, true, 0, false⟩] := by
  refine ⟨{ machine with
    files := created
    outputs := machine.outputs ++ [⟨path, target, true, 0, false⟩] }, ?_,
      rfl, rfl, rfl⟩
  rw [openOutput, if_neg (by simp [hzero]), hopen]

theorem exists_opened (hsolid : machine.Solid)
    (hzero : FileTree.hasZero path = false)
    (hopen : machine.files.openForWriting path true = .ok (created, target))
    (hjournal : machine.journalFile ≠ some target)
    (before after : List Journal.Note) :
    ∃ opened handle, (machine.noteAll before).openOutput path true =
      .ok (opened, handle) ∧
      (opened.noteAll after).outputs[handle]? = some ⟨path, target, true, 0, false⟩ ∧
      (opened.noteAll after).files.Stands path target
      ((machine.files.read? path).getD []) ∧
      machine.files.AgreesBut (machine.Unsettled target)
        (opened.noteAll after).files := by
  have hnoted := agreesBut_noteAll hsolid before
  have hsame := hnoted.nodes target hjournal
  obtain ⟨tree, htree⟩ := hnoted.openForWriting hjournal hopen
  obtain ⟨opened, houtput, rfl, hfile, houtputs⟩ := openOutput_append hzero htree
  rw [(quiet_noteAll machine before).journalFile] at hfile
  have hsolid' := (grounded_openOutput houtput
    (grounded_noteAll machine before hsolid).2).2
  have hagain := agreesBut_noteAll hsolid' after
  have hagrees : machine.files.AgreesBut (machine.Unsettled target)
      (opened.noteAll after).files := by
    refine ((hnoted.trans (FileTree.agreesBut_openForWriting htree)).trans
      hagain).imp ?_
    rintro names ((hnames | ⟨rfl, hget⟩) | hnames)
    · exact .inl hnames
    · exact .inr ⟨rfl, hsame ▸ hget⟩
    · exact .inl (hfile ▸ hnames)
  have hnode : (opened.noteAll after).files.get? target =
      some (.file ((machine.files.read? path).getD [])) := by
    have hcreated := (FileTree.stands_of_openForWriting hzero hopen).node
    rw [FileTree.get?_openForWriting hopen] at hcreated
    rw [hagain.nodes target (hfile ▸ hjournal), FileTree.get?_openForWriting htree,
      hsame, hcreated]
    rfl
  obtain ⟨⟨parent, name, hplace, htarget⟩, -⟩ :=
    FileTree.openForWriting_append_eq_ok.mp hopen
  have hplace' := hagrees.directories.place hplace
  refine ⟨opened, _, houtput, ?_, ⟨hzero, ⟨parent, name, hplace', htarget⟩, hnode⟩,
    hagrees⟩
  rw [outputs_noteAll, houtputs]
  simp

end Machine

namespace Execution

open Act

variable {σ : Type} {owner : Owner σ} {body : Body σ} {home : String}
  {input : Source}
  {session after : Session σ} {bound : BoundCommand}

theorem outcome_execute_to_file (hlive : session.cancelled = false) {output : Output}
    (hredirections : bound.redirections = ⟨none, some output⟩) {opened : Machine}
    {handle : Nat} (hopen : session.machine.openOutput
      (Path.resolve output.path session.directory home) output.append =
        .ok (opened, handle))
    {result : Except Fault ExitCode}
    (hresult : ∀ code, result = .ok code → code = .success)
    (hrun : outcome (runCommand owner body home bound input)
      { session with
        machine := opened.noteAll [runningNote 0 bound]
        out := .file handle } =
        (result, after)) :
    outcome (execute owner body home input [bound]) session =
      (result, Outlet.close (.file handle) { after with out := session.out }) := by
  have hopened : outcome (stageOutput home bound true) session =
      (.ok (.ok (.file handle)), { session with machine := opened }) := by
    unfold stageOutput
    rw [hredirections]
    dsimp only
    rw [openFile, outcome_bind, outcome_resolve]
    dsimp only [andThen]
    rw [outcome_bind, outcome_session]
    dsimp only [andThen]
    rw [hopen]
    rfl
  rw [execute, runStages, outcome_bind, outcome_check_of_live hlive]
  dsimp only [andThen]
  rw [outcome_bind, outcome_stageInput, hredirections]
  dsimp only [andThen]
  rw [outcome_bind, List.isEmpty_nil, hopened]
  dsimp only [andThen]
  have hwritten : outcome (withOutput (.file handle)
      (runCommand owner body home bound input))
        (Session.noted { session with machine := opened } [runningNote 0 bound]) =
          (result.map (·, after.out), { after with out := session.out }) := by
    have hnoted : outcome (runCommand owner body home bound input)
        { Session.noted { session with machine := opened } [runningNote 0 bound] with
          out := .file handle } = (result, after) := hrun
    rw [outcome_withOutput, hnoted]
    rfl
  have hstage : outcome (do
      note (runningNote 0 bound)
      let ended ← onStage (.file handle) input
        (runCommand owner body home bound input)
      proceed 0 bound (runStages owner body home 1 · []) ended)
        { session with machine := opened } =
        (result, { after with out := session.out }) := by
    rw [outcome_bind, outcome_note]
    dsimp only [andThen]
    rw [outcome_bind, onStage, outcome_bind, hwritten]
    cases result with
    | error fault => rfl
    | ok code =>
        cases hresult code rfl
        rfl
  exact congrArg (fun ended => (ended.1, Outlet.close (.file handle) ended.2)) hstage

end Execution

namespace Terminal

open Act Execution

def catSchema : CommandSchema :=
  { name := "cat"
    description := "Concatenate and display file contents"
    options := []
    typeName := "CatCommand"
    factory := .itself
    program := .builtin .cat
    hook := .none }

def catCommand (paths : List String) (redirections : Redirections) : BoundCommand :=
  { command :=
      { typeName := "CatCommand"
        name := "cat"
        values := []
        program := .builtin .cat
        hook := .none }
    schema := catSchema
    arguments := paths
    redirections }

private theorem bindTo_cat (parsers : Parsers) (paths : List String)
    (redirections : Redirections) :
    ∃ note, Binding.bindTo parsers ⟨"cat", paths, [], redirections⟩ catSchema =
      .ok (catCommand paths redirections, note) :=
  ⟨_, rfl⟩

private theorem bind_cat {registry : Registry}
    (hcommand : registry.lookup "cat" = some catSchema) (parsers : Parsers)
    (paths : List String) (redirections : Redirections) :
    ∃ note, registry.bind parsers [⟨"cat", paths, [], redirections⟩] =
      ([note], .ok [catCommand paths redirections]) := by
  obtain ⟨note, hbound⟩ := bindTo_cat parsers paths redirections
  refine ⟨note, ?_⟩
  rw [Registry.bind, Registry.bindCommand, hcommand]
  dsimp only
  rw [hbound]
  rfl

variable {home : String} {input : Source} {paths : List String}
  {redirections : Redirections}
  {held : String → List String} {target : List String} {old : List UInt8}

private theorem outcome_runCommand_cat (hsome : paths ≠ [])
    (session : Session Memory) :
    outcome (runCommand owner (commands owner) home (catCommand paths redirections)
      input) session =
      orElse (recover (catCommand paths redirections))
        (outcome (Builtin.copyFiles
          ⟨input, paths, session.directory, home, session.previous,
            session.owner.history, true⟩ paths)
          session) := by
  have hprogram : (catCommand paths redirections).command.program = .builtin .cat :=
    rfl
  rw [outcome_runCommand_builtin owner home input hprogram rfl]
  change orElse _ (outcome (Builtin.runCat
    ⟨input, paths, session.directory, home, session.previous,
      session.owner.history, true⟩)
      session) = _
  rw [Builtin.runCat, if_neg (by simpa using hsome)]

/-- The command either ends with all lines in the file, or does not end. -/
theorem outcome_cat_to_end {start : Session Memory}
    (hstart : start.AppendsTo target old) (hsome : paths ≠ [])
    (hheld : ∀ path ∈ paths, (start.machine.files.read?
      (Path.resolve path start.directory home)).bind fileLines? = some (held path)) :
    let fed := start.machine.files.FedBack target (old ≠ [])
      (paths.map (Path.resolve · start.directory home))
    let result :=
      outcome (runCommand owner (commands owner) home (catCommand paths redirections)
        input) start
    (fed → ∃ after, result = (.error .endless, after)) ∧
      (¬ fed → result = (.ok .success,
        start.extended target (lineOctets (paths.flatMap held)))) := by
  let context : Context :=
    ⟨input, paths, start.directory, home, start.previous, start.owner.history, true⟩
  have hcopied := @outcome_copyFiles _ _ _ start context [] hstart held paths hheld
  have hnothing : start.extended target (lineOctets []) = start :=
    hstart.extended_nil
  rw [hnothing] at hcopied
  simp only [lineOctets, List.flatMap_nil, List.append_nil,
    List.nil_append] at hcopied
  rw [outcome_runCommand_cat hsome]
  refine ⟨fun hfed => ?_, fun hnot => ?_⟩
  · have hendless : outcome (Builtin.copyFiles context paths) start =
        (.error .endless, _) :=
      Prod.ext (hcopied.1 hfed) rfl
    exact ⟨_, congrArg (orElse (recover _)) hendless⟩
  · exact congrArg (orElse (recover _)) (hcopied.2 hnot)

theorem runOn_to_file {terminal recorded : Terminal} {streams : Streams}
    {text : String} {pipeline : Pipeline} {notes : List Journal.Note}
    {bound : BoundCommand} {output : Output} {opened : Machine} {handle : Nat}
    {result : Except Fault ExitCode} {after : Session Memory}
    (hblank : Text.allBlank text = false)
    (hadded : terminal.addHistory text = (.ok (), recorded))
    (hlive : streams.cancelled = false)
    (hparse : Pipeline.parse text = .ok (some pipeline))
    (hbind : terminal.registry.bind terminal.parsers pipeline = (notes, .ok [bound]))
    (hredirections : bound.redirections = ⟨none, some output⟩)
    (hopen : (terminal.readyMachine text notes).openOutput
      (terminal.resolve output.path) output.append = .ok (opened, handle))
    (hresult : result = .ok .success ∨ result = .error .endless)
    (hrun : outcome (runCommand owner (commands owner) terminal.home bound
      streams.input) { recorded.sessionFor streams with
        machine := opened.noteAll [runningNote 0 bound]
        out := .file handle } = (result, after)) :
    (terminal.runOn streams text).result = result ∧
      (terminal.runOn streams text).terminal.machine.files =
        after.machine.files := by
  obtain ⟨hrecorded, hwhereabouts⟩ := addHistory_recorded hadded
  generalize recorded.memory = memory at hrecorded hwhereabouts
  subst hrecorded
  have hdirectory : memory.directory = terminal.memory.directory :=
    congrArg Whereabouts.directory hwhereabouts
  let ready := ({ terminal with memory }.sessionFor streams).noted
    (readingNotes text ++ notes)
  have hopened : ready.machine.openOutput
      (Path.resolve output.path ready.directory terminal.home)
        output.append = .ok (opened, handle) := by
    change (terminal.readyMachine text notes).openOutput
      (Path.resolve output.path memory.directory terminal.home) output.append = _
    rw [hdirectory]
    exact hopen
  have hsuccess : ∀ code, result = .ok code → code = .success := by
    rintro code rfl
    exact Except.ok.inj (hresult.resolve_right nofun)
  have hexecuted : outcome
      (execute owner (commands owner) terminal.home streams.input [bound]) ready =
        (result, Outlet.close (.file handle) { after with out := streams.out }) :=
    outcome_execute_to_file hlive hredirections hopened hsuccess hrun
  have hended : orElse reportFailure
      (outcome (interpret owner terminal.parsers terminal.home streams.input text)
        ({ terminal with memory }.sessionFor streams)) =
        (result, Outlet.close (.file handle) { after with out := streams.out }) := by
    rw [interpret, outcome_interpretWith_of_parse owner _ _ _ _ hparse hbind]
    change orElse reportFailure (outcome (execute _ _ _ _ [bound]) ready) = _
    rw [hexecuted]
    rcases hresult with rfl | rfl <;> rfl
  rw [runOn_of_added hblank hadded, hended]
  exact ⟨rfl, files_closeOutput after.machine handle⟩

/-- A line copies files to the end of another one. It ends with success, every line
is then in its place and every other file as it was, except that the journal may have
got notes. But where the file that is written feeds itself, the line does not end: by
`outcome_copy_self` no number of steps is enough. -/
theorem runOn_copies_or_feeds_itself {terminal recorded : Terminal}
    {streams : Streams} {text out : String} {created : FileTree}
    (hcommand : terminal.registry.lookup "cat" = some catSchema)
    (hadded : terminal.addHistory text = (.ok (), recorded))
    (hsolid : terminal.machine.Solid) (hlive : streams.cancelled = false)
    (hblank : Text.allBlank text = false)
    (hparse : Pipeline.parse text =
      .ok (some [⟨"cat", paths, [], ⟨none, some ⟨out, true⟩⟩⟩]))
    (hsome : paths ≠ []) (hzero : FileTree.hasZero (terminal.resolve out) = false)
    (hopen : terminal.machine.files.openForWriting (terminal.resolve out) true =
      .ok (created, target))
    (hheld : ∀ path ∈ paths,
      (terminal.machine.files.read? (terminal.resolve path)).bind fileLines? =
      some (held path))
    (hjournal : ∀ names, terminal.machine.journalFile = some names → names ≠ target ∧
      ∀ path ∈ paths, terminal.machine.files.openForReading (terminal.resolve path) ≠
        .ok names) :
    let files := terminal.machine.files
    let old := (files.read? (terminal.resolve out)).getD []
    let fed := files.FedBack target (old ≠ []) (paths.map terminal.resolve)
    let ended := terminal.runOn streams text
    (fed → ended.result = .error .endless) ∧
      (¬ fed → ended.result = .ok .success ∧
        ended.terminal.machine.files.read? (terminal.resolve out) =
          some (old ++ lineOctets (paths.flatMap held)) ∧
        ∀ names, names ≠ target → terminal.machine.journalFile ≠ some names →
          ended.terminal.machine.files.get? names = files.get? names) := by
  intro files old fed ended
  have hdirectory : recorded.memory.directory = terminal.memory.directory :=
    congrArg Whereabouts.directory (addHistory_recorded hadded).2
  obtain ⟨note, hbind⟩ := bind_cat hcommand terminal.parsers paths
    ⟨none, some ⟨out, true⟩⟩
  obtain ⟨opened, handle, houtput, hhandle, hstands, hagrees⟩ :=
    Machine.exists_opened hsolid hzero hopen (fun h => (hjournal target h).1 rfl)
      (readingNotes text ++ [note])
        [runningNote 0 (catCommand paths ⟨none, some ⟨out, true⟩⟩)]
  let start : Session Memory :=
    { recorded.sessionFor streams with
      machine := opened.noteAll
        [runningNote 0 (catCommand paths ⟨none, some ⟨out, true⟩⟩)]
      out := .file handle }
  have hstart : start.AppendsTo target old :=
    ⟨hlive, ⟨handle, _, rfl, hhandle⟩, hstands.node⟩
  have hresolve (path : String) : Path.resolve path start.directory terminal.home =
      terminal.resolve path :=
        congrArg (Path.resolve path · terminal.home) hdirectory
  have hsettled : ∀ path ∈ paths, ∃ names,
      ¬ terminal.machine.Unsettled target names ∧
        files.openForReading (terminal.resolve path) = .ok names := by
    intro path hpath
    obtain ⟨content, hread, -⟩ := Option.bind_eq_some_iff.mp (hheld path hpath)
    obtain ⟨-, names, hnames, -⟩ := FileTree.read?_eq_some.mp hread
    exact ⟨names, Machine.not_unsettled hnames fun h =>
      (hjournal names h).2 path hpath hnames, hnames⟩
  have hread : ∀ path ∈ paths, (start.machine.files.read?
      (Path.resolve path start.directory terminal.home)).bind fileLines? =
        some (held path) := by
    intro path hpath
    obtain ⟨names, hplain, hnames⟩ := hsettled path hpath
    rw [hresolve, hagrees.read? hplain hnames]
    exact hheld path hpath
  have hfed : start.machine.files.FedBack target (old ≠ [])
      (paths.map (Path.resolve · start.directory terminal.home)) ↔ fed := by
    simp only [hresolve]
    exact hagrees.fedBack (by simpa using hsettled)
  obtain ⟨hfeeds, hcopies⟩ := outcome_cat_to_end hstart hsome hread
  rw [hfed] at hfeeds hcopies
  refine ⟨fun hfed => ?_, fun hnot => ?_⟩
  · obtain ⟨after, hrun⟩ := hfeeds hfed
    exact (runOn_to_file hblank hadded hlive hparse hbind rfl houtput
      (.inr rfl) hrun).1
  · obtain ⟨hresult, hfiles⟩ :=
      runOn_to_file hblank hadded hlive hparse hbind rfl houtput (.inl rfl)
      (hcopies hnot)
    have hgrown : start.machine.files.append target
        (lineOctets (paths.flatMap held)) =
          start.machine.files.set target
            (.file (old ++ lineOctets (paths.flatMap held))) := by
      rw [FileTree.append, FileTree.content_of_file hstart.node]
    refine ⟨hresult, ?_, fun names hother hplain => ?_⟩
    · rw [hfiles, Session.extended, hgrown]
      exact (hstands.set _).read?_eq
    · rw [hfiles, Session.extended, hgrown, FileTree.get?_set_of_ne hother]
      exact hagrees.nodes names fun h => h.elim hplain fun h => hother h.1

/-! A file with a line in it, and an empty one. -/

def copyingTerminal : Terminal :=
  { sampleTerminal with
    machine := Machine.new
      ⟨[(["home"], .directory), (["home", "user"], .directory),
        (["home", "user", "a"], .file [120]), (["home", "user", "e"], .file [])]⟩
          "/home/user" 0 false }

/-- The empty file may be copied to its own end before it gets anything. -/
theorem runOn_copies_or_feeds_itself_empty :
    copyingTerminal.machine.files.openForReading (copyingTerminal.resolve "e") =
        .ok ["home", "user", "e"] ∧
      (copyingTerminal.runOn sampleStreams "cat e a >> e").result = .ok .success ∧
      (copyingTerminal.runOn sampleStreams
        "cat e a >> e").terminal.machine.files.read? (copyingTerminal.resolve "e") =
          some [120, 10] := by
  have hopen : copyingTerminal.machine.files.openForWriting
      (copyingTerminal.resolve "e") true =
        .ok (copyingTerminal.machine.files, ["home", "user", "e"]) := by
    rfl
  have hheld : ∀ path ∈ ["e", "a"], (copyingTerminal.machine.files.read?
      (copyingTerminal.resolve path)).bind fileLines? =
        some (if path = "a" then ["x"] else []) := by
    decide +kernel
  have hempty : copyingTerminal.machine.files.read? (copyingTerminal.resolve "e") =
      some [] := by
    decide +kernel
  have hother : copyingTerminal.machine.files.openForReading
      (copyingTerminal.resolve "a") =
        .ok ["home", "user", "a"] := by
    rfl
  have hnot : ¬ copyingTerminal.machine.files.FedBack ["home", "user", "e"]
      ((copyingTerminal.machine.files.read? (copyingTerminal.resolve "e")).getD [] ≠
        [])
      (["e", "a"].map copyingTerminal.resolve) := by
    simp [FileTree.fedBack_cons, FileTree.fedBack_nil, hempty, hother]
  have hblank : Text.allBlank "cat e a >> e" = false := by decide
  have hsolid : copyingTerminal.machine.Solid :=
    (Machine.startable_new _ _ _ _).toSolid
  have hadded : ∃ recorded, copyingTerminal.addHistory "cat e a >> e" =
      (.ok (), recorded) := by
    rcases @addHistory_cases copyingTerminal _ rfl _ hblank with ⟨hsame, -⟩ | hadded
    · exact ⟨_, hsame⟩
    · exact ⟨_, hadded⟩
  obtain ⟨recorded, hadded⟩ := hadded
  have hlive : sampleStreams.cancelled = false := rfl
  obtain ⟨-, hcopies⟩ := runOn_copies_or_feeds_itself (by rfl) hadded hsolid hlive
    hblank (by rfl)
    (List.cons_ne_nil _ _) (by decide +kernel) hopen hheld nofun
  obtain ⟨hresult, hread, -⟩ := hcopies hnot
  refine ⟨by rfl, hresult, hread.trans ?_⟩
  rw [hempty]
  decide +kernel

def neverEnds : Except Fault ExitCode → Bool
  | .error .endless => true
  | _ => false

private theorem neverEnds_iff {result : Except Fault ExitCode} :
    neverEnds result = true ↔ result = .error .endless := by
  unfold neverEnds
  split <;> simp_all

/-- A file that is not empty has no end when it is copied there. -/
theorem own_end_is_never_reached :
    (copyingTerminal.runOn sampleStreams "cat a >> a").result = .error .endless :=
  neverEnds_iff.mp (by decide +kernel)

end Terminal

end PipeShell
