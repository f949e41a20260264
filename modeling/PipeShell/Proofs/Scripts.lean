import PipeShell.Proofs.Commands

/-! Commands as scripts. A script asks one thing after the other of its session, and
each answer decides how it goes on, also if the answer is a fault. All that a script
reads and writes heeds the cancellation. -/

namespace PipeShell

open Channel (Source Cursor)

variable {σ α β : Type} {owner : Owner σ}

namespace Act

def errorText (text : String) : Act σ Unit := do
  check
  let session ← session
  let (err, machine) ← lift (session.err.write session.machine text)
  set { session with err, machine }

def clearErrors : Act σ Unit := do
  let session ← session
  let err ← lift session.err.clear
  set { session with err }

def attempt (act : Act σ α) : Act σ (Except Fault α) :=
  ExceptT.mk do return .ok (← act.run)

private theorem outcome_attempt (act : Act σ α) (session : Session σ) :
    outcome (attempt act) session =
      (.ok (outcome act session).1, (outcome act session).2) := rfl

end Act

inductive Request where
  | look
  | check
  | cancel
  | write (text : String)
  | writeLine (line : String)
  | clearOutput
  | errorText (text : String)
  | errorLine (line : String)
  | clearErrors
  | start (source : Source)
  | next (cursor : Cursor)
  | changeDirectory (path : String)
  | clearHistory
  | deleteEntry (position : Int)
  | unregister (name : String)
  | note (note : Journal.Note)
  | clearJournal

namespace Request

def Answer (σ : Type) : Request → Type
  | .look => Session σ
  | .start _ => Cursor
  | .next _ => Option (String × Cursor)
  | .deleteEntry _ => Bool
  | .unregister _ => Bool
  | _ => Unit

def act (owner : Owner σ) : (request : Request) → Act σ (request.Answer σ)
  | .look => Act.session
  | .check => Act.check
  | .cancel => Act.cancel
  | .write text => Act.write text
  | .writeLine line => Act.writeLine line
  | .clearOutput => Act.clearOutput
  | .errorText text => Act.errorText text
  | .errorLine line => Act.errorLine line
  | .clearErrors => Act.clearErrors
  | .start source => Act.start source
  | .next cursor => Act.next cursor
  | .changeDirectory path => Act.changeDirectory owner path
  | .clearHistory => Act.clearHistory owner
  | .deleteEntry position => Act.deleteEntry owner position
  | .unregister name => Act.unregister name
  | .note record => Act.note record
  | .clearJournal => Act.onMachine Machine.clearJournal

end Request

inductive Script (σ α : Type) where
  | done (value : α)
  | fail (fault : Fault)
  | ask (request : Request) (next : Except Fault (request.Answer σ) → Script σ α)

namespace Script

def run (owner : Owner σ) : Script σ α → Act σ α
  | .done value => pure value
  | .fail fault => throw fault
  | .ask request next =>
      Act.attempt (request.act owner) >>= fun answer => (next answer).run owner

def bind : Script σ α → (α → Script σ β) → Script σ β
  | .done value, next => next value
  | .fail fault, _ => .fail fault
  | .ask request rest, next => .ask request fun answer => (rest answer).bind next

private theorem run_bind (script : Script σ α) (next : α → Script σ β) :
    (script.bind next).run owner = script.run owner >>= fun value =>
    (next value).run owner := by
  induction script with
  | done value => rfl
  | fail fault => rfl
  | ask request rest ih =>
      simp only [bind, run, ih]
      exact (bind_assoc _ _ _).symm

def ofExcept : Except Fault α → Script σ α
  | .ok value => .done value
  | .error fault => .fail fault

end Script

namespace Act

/-- The action reads and writes as scripts do. -/
def Heeds (owner : Owner σ) (act : Act σ α) : Prop :=
  ∃ script : Script σ α, act = script.run owner

theorem heeds_pure (value : α) : Heeds owner (pure value) := ⟨.done value, rfl⟩

theorem heeds_throw (fault : Fault) : Heeds owner (throw fault : Act σ α) :=
  ⟨.fail fault, rfl⟩

theorem Heeds.bind {act : Act σ α} {next : α → Act σ β} (hact : Heeds owner act)
    (hnext : ∀ value, Heeds owner (next value)) : Heeds owner (act >>= next) := by
  obtain ⟨script, rfl⟩ := hact
  refine ⟨script.bind fun value => (hnext value).choose, ?_⟩
  rw [Script.run_bind]
  exact bind_congr fun value => (hnext value).choose_spec

theorem heeds_request (request : Request) : Heeds owner (request.act owner) := by
  refine ⟨.ask request .ofExcept, ?_⟩
  apply ext
  intro session
  rw [Script.run, outcome_bind, outcome_attempt]
  dsimp only [andThen]
  rcases outcome (request.act owner) session with ⟨fault | value, after⟩ <;> rfl

private theorem heeds_lift (result : Except Fault α) :
    Heeds owner (lift result) := by
  cases result with
  | ok value => exact heeds_pure value
  | error fault => exact heeds_throw fault

theorem heeds_files_bind {next : FileTree → Act σ α}
    (hnext : ∀ tree, Heeds owner (next tree)) :
    Heeds owner (files >>= next) :=
  (heeds_request .look).bind fun session => hnext session.machine.files

theorem heeds_writeLines (lines : List String) : Heeds owner (writeLines lines) := by
  induction lines with
  | nil => exact heeds_pure ()
  | cons line rest ih => exact (heeds_request (.writeLine line)).bind fun _ => ih

private theorem heeds_foldLines {step : α → String → Act σ α}
    (hstep : ∀ value line, Heeds owner (step value line)) (bound : Nat) (value : α)
    (cursor : Cursor) : Heeds owner (foldLines step bound value cursor) := by
  induction bound generalizing value cursor with
  | zero => exact heeds_throw .endless
  | succ bound ih =>
      refine (heeds_request (.next cursor)).bind fun found => ?_
      cases found with
      | none => exact heeds_pure value
      | some found => exact (hstep value found.1).bind fun value => ih value found.2

theorem heeds_foldSource {step : α → String → Act σ α}
    (hstep : ∀ value line, Heeds owner (step value line)) (initial : α)
    (source : Source) : Heeds owner (foldSource step initial source) :=
  (heeds_request (.start source)).bind fun cursor =>
    heeds_files_bind fun _ => heeds_foldLines hstep _ initial cursor

theorem heeds_eachLine {step : String → Act σ Unit}
    (hstep : ∀ line, Heeds owner (step line)) (source : Source) :
    Heeds owner (eachLine step source) :=
  heeds_foldSource (fun _ line => hstep line) () source

theorem heeds_readLines (source : Source) :
    Heeds owner (readLines source : Act σ (List String)) :=
  (heeds_foldSource (fun _ _ => heeds_pure _) #[] source).bind fun _ => heeds_pure _

private theorem heeds_eachOfFirst {step : String → Act σ Unit}
    (hstep : ∀ line, Heeds owner (step line)) (count : Nat) (cursor : Cursor) :
    Heeds owner (eachOfFirst step count cursor) := by
  induction count generalizing cursor with
  | zero => exact heeds_pure ()
  | succ count ih =>
      refine (heeds_request (.next cursor)).bind fun found => ?_
      cases found with
      | none => exact heeds_pure ()
      | some found => exact (hstep found.1).bind fun _ => ih found.2

end Act

namespace Builtin

open Act

theorem heeds_failing (message : String) : Heeds owner (failing message) :=
  (heeds_request (.errorLine message)).bind fun _ => heeds_pure _

theorem heeds_misused (message : String) : Heeds owner (misused message) :=
  (heeds_request (.errorLine message)).bind fun _ => heeds_pure _

theorem heeds_fileSource (command : String) (context : Context) (path : String) :
    Heeds owner (fileSource command context path) := by
  have hmissing (message : String) :
      Heeds owner (errorLine message >>= fun _ => pure (none : Option Source)) :=
    (heeds_request (.errorLine message)).bind fun _ => heeds_pure _
  refine heeds_files_bind fun tree => ?_
  split
  · exact hmissing _
  · split
    · exact hmissing _
    · exact heeds_pure _

private theorem heeds_runEcho (context : Context) (noNewline : Bool) :
    Heeds owner (runEcho context noNewline) := by
  unfold runEcho
  cases noNewline with
  | true => exact (heeds_request (.write _)).bind fun _ => heeds_pure _
  | false => exact (heeds_request (.writeLine _)).bind fun _ => heeds_pure _

theorem heeds_copyLines (source : Source) :
    Heeds owner (eachLine writeLine source) :=
  heeds_eachLine (fun line => heeds_request (.writeLine line)) source

private theorem heeds_copyFiles (context : Context) (paths : List String) :
    Heeds owner (copyFiles context paths) := by
  induction paths with
  | nil => exact heeds_pure _
  | cons path rest ih =>
      refine (heeds_fileSource _ context path).bind fun found => ?_
      cases found with
      | none => exact heeds_pure _
      | some source => exact (heeds_copyLines source).bind fun _ => ih

private theorem heeds_runCat (context : Context) : Heeds owner (runCat context) := by
  unfold runCat
  split
  · exact (heeds_copyLines _).bind fun _ => heeds_pure _
  · exact heeds_copyFiles context _

private theorem heeds_grepStep (options : GrepOptions) (node : Pattern.Node)
    (count : Nat) (line : String) :
    Heeds owner (grepStep options node count line) := by
  unfold grepStep
  split
  · exact heeds_pure _
  · split
    · exact (heeds_request (.writeLine line)).bind fun _ => heeds_pure _
    · exact heeds_pure _

private theorem heeds_runGrep (context : Context) (options : GrepOptions) :
    Heeds owner (runGrep context options) := by
  unfold runGrep
  split
  · exact heeds_misused _
  · split
    · exact heeds_misused _
    · exact heeds_throw _
    · exact heeds_throw _
    · next node _ =>
        refine (heeds_foldSource (heeds_grepStep options node) 0 context.input).bind
          fun count => ?_
        by_cases hcount : options.countOnly = true
        · simp only [if_pos hcount]
          exact (heeds_request (.writeLine _)).bind fun _ => heeds_pure _
        · simp only [if_neg hcount]
          exact heeds_pure _

private theorem heeds_windowFiles (command : String)
    (select : List String → List String) (context : Context) (headings : Bool)
    (index : Nat) (paths : List String) :
    Heeds owner (windowFiles command select context headings index paths) := by
  induction paths generalizing index with
  | nil => exact heeds_pure _
  | cons path rest ih =>
      have hlines (source : Source) : Heeds owner
          (readLines source >>= fun lines => writeLines (select lines) >>= fun _ =>
            windowFiles command select context headings (index + 1) rest) :=
        (heeds_readLines source).bind fun _ => (heeds_writeLines _).bind fun _ =>
          ih (index + 1)
      refine (heeds_fileSource _ context path).bind fun found => ?_
      cases found with
      | none => exact heeds_pure _
      | some source =>
          cases headings with
          | false => exact hlines source
          | true =>
              by_cases hindex : index ≠ 0
              · simp only [if_pos hindex, if_true]
                exact (heeds_request (.writeLine _)).bind fun _ =>
                  (heeds_request (.writeLine _)).bind fun _ => hlines source
              · simp only [if_neg hindex, if_true]
                exact (heeds_request (.writeLine _)).bind fun _ => hlines source

private theorem heeds_runWindow (command : String)
    (select : List String → List String) (context : Context) :
    Heeds owner (runWindow command select context) := by
  unfold runWindow
  split
  · exact (heeds_readLines _).bind fun _ => (heeds_writeLines _).bind fun _ =>
      heeds_pure _
  · exact heeds_windowFiles command select context _ 0 _

private theorem heeds_move (target : Move) : Heeds owner (move owner target) := by
  refine heeds_files_bind fun tree => ?_
  split
  · exact heeds_failing _
  · split
    · exact heeds_failing _
    · refine (heeds_request (.changeDirectory _)).bind fun _ => ?_
      split
      · exact (heeds_request (.writeLine _)).bind fun _ => heeds_pure _
      · exact heeds_pure _

private theorem heeds_runCd (context : Context) :
    Heeds owner (runCd owner context) := by
  unfold runCd
  split
  · exact heeds_misused _
  · split
    · exact heeds_failing _
    · split
      · exact heeds_failing _
      · exact heeds_move _

private theorem heeds_runHistory (context : Context) (options : HistoryOptions) :
    Heeds owner (runHistory owner context options) := by
  unfold runHistory
  split
  · split
    · exact heeds_failing _
    · exact (heeds_request .clearHistory).bind fun _ => heeds_pure _
  · split
    · split
      · exact heeds_failing _
      · split
        · exact heeds_failing _
        · exact (heeds_request (.deleteEntry _)).bind fun _ => heeds_pure _
    · exact (heeds_writeLines _).bind fun _ => heeds_pure _

private theorem heeds_helpRegistry (tied : Bool) :
    Heeds owner (helpRegistry tied : Act σ (Option Registry)) := by
  refine (heeds_request .look).bind fun _ => ?_
  refine Heeds.bind ((heeds_request .look).bind fun _ => heeds_pure _) fun found =>
    ?_
  split
  · exact heeds_pure _
  · split
    · exact heeds_pure _
    · exact heeds_pure _

private theorem heeds_runHelp (tied : Bool) (context : Context) :
    Heeds owner (runHelp tied context) := by
  refine (heeds_helpRegistry tied).bind fun found => ?_
  split
  · exact heeds_failing _
  · split
    · exact (heeds_writeLines _).bind fun _ => heeds_pure _
    · split
      · exact heeds_misused _
      · exact (heeds_writeLines _).bind fun _ => heeds_pure _

private theorem heeds_runLog (options : LogOptions) :
    Heeds owner (runLog options) := by
  refine (heeds_request .look).bind fun _ => ?_
  split
  · exact heeds_failing _
  · split
    · exact (heeds_request .clearJournal).bind fun _ => heeds_pure _
    · refine (heeds_request .look).bind fun _ =>
        (heeds_lift _).bind fun entries => ?_
      exact (heeds_writeLines _).bind fun _ => heeds_pure _

private theorem heeds_run (context : Context) (command : Instance)
    (builtin : Builtin) :
    Heeds owner (run owner context command builtin) := by
  cases builtin with
  | echo => exact heeds_runEcho context _
  | cat => exact heeds_runCat context
  | grep => exact heeds_runGrep context _
  | head | tail => exact heeds_runWindow _ _ context
  | pwd => exact (heeds_request (.writeLine _)).bind fun _ => heeds_pure _
  | cd => exact heeds_runCd context
  | history => exact heeds_runHistory context _
  | help tied => exact heeds_runHelp tied context
  | log => exact heeds_runLog _

end Builtin

namespace Action

open Act

/-- Whether the action leaves writing to its session. Two do not: an interrupt shows
itself on the console, and a failure is reported even if the run has been
cancelled. -/
def heedful : Action → Bool
  | .interrupt => false
  | .failWith _ => false
  | _ => true

private theorem heeds_perform (context : Context) {action : Action}
    (hheedful : action.heedful = true) :
    Heeds owner (action.perform owner context) := by
  have hdone {act : Act σ Unit} (hact : Heeds owner act) :
      Heeds owner (act >>= fun _ => pure (none : Option Status)) :=
        hact.bind fun _ => heeds_pure _
  have hline (line : String) : Heeds owner (writeLine line) :=
    heeds_request (.writeLine line)
  cases action with
  | line text => exact hdone (hline text)
  | write text => exact hdone (heeds_request (.write text))
  | errorLine text => exact hdone (heeds_request (.errorLine text))
  | arguments => exact hdone (heeds_writeLines _)
  | copy mark => exact hdone (heeds_eachLine (fun _ => hline _) _)
  | take most =>
      exact (heeds_request (.start _)).bind fun cursor =>
        hdone (heeds_eachOfFirst hline _ cursor)
  | count => exact (heeds_readLines _).bind fun _ => hdone (hline _)
  | directories => exact hdone (heeds_writeLines _)
  | changeDirectory path =>
      rw [perform]
      have hmove : Heeds owner
          (Act.changeDirectory owner path >>= fun _ =>
            pure (none : Option Status)) :=
        hdone (heeds_request (.changeDirectory path))
      cases context.canMove with
      | true => exact hmove
      | false => exact (heeds_throw _).bind fun _ => hmove
  | resolve path => exact hdone (hline _)
  | history => exact hdone (heeds_writeLines _)
  | clearHistory => exact hdone (heeds_request .clearHistory)
  | deleteEntry position =>
      exact (heeds_request (.deleteEntry position)).bind fun _ => hdone (hline _)
  | unregister name =>
      exact (heeds_request (.unregister name)).bind fun _ => hdone (hline _)
  | clear => exact hdone (heeds_request .clearOutput)
  | cancel => exact hdone (heeds_request .cancel)
  | check => exact hdone (heeds_request .check)
  | interrupt => cases hheedful
  | failWith text => cases hheedful
  | finish value => exact heeds_pure _
  | raise fault => exact heeds_throw _

private theorem heeds_performAll (context : Context) {actions : List Action}
    (hheedful : ∀ action ∈ actions, action.heedful = true) :
    Heeds owner (performAll owner context actions) := by
  induction actions with
  | nil => exact heeds_pure _
  | cons action rest ih =>
      obtain ⟨hfirst, hrest⟩ := List.forall_mem_cons.mp hheedful
      refine (heeds_perform context hfirst).bind fun ended => ?_
      cases ended with
      | none => exact ih hrest
      | some status => exact heeds_pure _

end Action

def Program.heedful : Program → Bool
  | .builtin _ => true
  | .actions steps => steps.all Action.heedful

theorem Instance.heeds_run (context : Context) {command : Instance}
    (hheedful : command.program.heedful = true) :
    Act.Heeds owner (command.run owner context) := by
  unfold Instance.run
  split
  · exact Act.heeds_throw _
  · exact (Builtin.heeds_run context command _).bind fun _ => Act.heeds_pure _
  · next steps _ hprogram =>
      rw [hprogram] at hheedful
      exact Action.heeds_performAll context (List.all_eq_true.mp hheedful)

structure Point (σ : Type) where
  begun : Nat
  opened : Nat
  session : Session σ

structure Watch (σ : Type) where
  begun : Nat
  opened : Nat
  trail : List (Point σ)

def Watch.start : Watch σ := ⟨0, 0, []⟩

def Watch.record (watch : Watch σ) (session : Session σ) : Watch σ :=
  { watch with trail := watch.trail ++ [⟨watch.begun, watch.opened, session⟩] }

/-- Changes the watch, and then writes down where the script stands. -/
def Act.mark (change : Watch σ → Watch σ) : Act (σ × Watch σ) Unit :=
  modify fun session => session.plain.beside
    ((change session.owner.2).record session.plain)

namespace Request

/-- Whether the request has come as far as to open a file to be read. -/
def opens : (request : Request) → Except Fault (request.Answer σ) → Bool
  | .next (.unopened _), .error (.cancelled _) => false
  | .next (.unopened _), _ => true
  | _, _ => false

def watched (owner : Owner σ) (request : Request) :
    Act (σ × Watch σ) (Except Fault (request.Answer σ)) := do
  let answer ← Act.attempt (request.act owner).beside
  Act.mark fun watch => { watch with opened :=
    watch.opened + (request.opens answer).toNat }
  return answer

end Request

def Script.watched (owner : Owner σ) : Script σ α → Act (σ × Watch σ) α
  | .done value => pure value
  | .fail fault => throw fault
  | .ask request next =>
      request.watched owner >>= fun answer => (next answer).watched owner

namespace Execution

open Act

/-- The scripts, with a mark where a command begins and after each of its
requests. -/
def watching (owner : Owner σ) (scripts : BoundCommand → Context → Script σ Status) :
    Body (σ × Watch σ) :=
  fun bound context => do
    mark fun watch => { watch with begun := watch.begun + 1 }
    (scripts bound context).watched owner

def Follows (owner : Owner σ) (body : Body σ) (pipeline : BoundPipeline)
    (scripts : BoundCommand → Context → Script σ Status) : Prop :=
  ∀ bound ∈ pipeline, ∀ context,
    body bound context = (scripts bound context).run owner

theorem exists_follows {body : Body σ} {pipeline : BoundPipeline}
    (hbody : ∀ bound ∈ pipeline, ∀ context, Heeds owner (body bound context)) :
    ∃ scripts, Follows owner body pipeline scripts := by
  have hscript : ∀ bound context, ∃ script : Script σ Status,
      bound ∈ pipeline → body bound context = script.run owner := by
    intro bound context
    by_cases hmember : bound ∈ pipeline
    · obtain ⟨script, hscript⟩ := hbody bound hmember context
      exact ⟨script, fun _ => hscript⟩
    · -- The script of a command that does not occur is never run.
      exact ⟨.done (.code .success), fun h => absurd h hmember⟩
  exact ⟨fun bound context => (hscript bound context).choose,
    fun bound hmember context => (hscript bound context).choose_spec hmember⟩

private theorem linked_mark (change : Watch σ → Watch σ) :
    Related (Session.Linked Eq Alongside) (mark change) (pure () : Act σ Unit) := by
  intro before before' hbefore
  rw [eq_plain_of_linked hbefore]
  exact ⟨rfl, linked_plain _⟩

private theorem linked_watched (script : Script σ α) :
    Related (Session.Linked Eq Alongside) (script.watched owner)
      (script.run owner) := by
  induction script with
  | done value => exact related_pure value
  | fail fault => exact related_throw fault
  | ask request next ih =>
      refine related_bind ?_ ih
      intro before before' hbefore
      rw [eq_plain_of_linked hbefore]
      exact ⟨rfl, linked_plain _⟩

/-- Watching changes nothing. -/
theorem outcome_watching {body : Body σ} {pipeline : BoundPipeline}
    {scripts : BoundCommand → Context → Script σ Status}
    (hfollows : Follows owner body pipeline scripts) (home : String) (input : Source)
    (session : Session σ) (watch : Watch σ) :
    (outcome (execute owner.beside (watching owner scripts) home input pipeline)
        (session.beside watch)).1 =
          (outcome (execute owner body home input pipeline) session).1 ∧
      (outcome (execute owner.beside (watching owner scripts) home input pipeline)
        (session.beside watch)).2.plain =
        (outcome (execute owner body home input pipeline) session).2 := by
  have hbody : ∀ bound ∈ pipeline, ∀ context,
      Related (Session.Linked Eq Alongside) (watching owner scripts bound context)
        (body bound context) := by
    intro bound hmember context
    rw [hfollows bound hmember context]
    exact related_bind (linked_mark _) fun _ => linked_watched _
  have hended := outcome_beside owner hbody home 0 input (session.beside watch)
  exact ⟨(congrArg Prod.fst hended).symm, (congrArg Prod.snd hended).symm⟩

end Execution

end PipeShell
