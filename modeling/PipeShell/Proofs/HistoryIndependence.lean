import PipeShell.Proofs.Answers
import PipeShell.Proofs.Refusals

namespace PipeShell

open Channel (Source Writer)

variable {σ : Type}

/-- The action shows something of the history. -/
def Action.looksBack : Action → Bool
  | .history => true
  | .deleteEntry _ => true
  | _ => false

def Program.looksBack : Program → Bool
  | .builtin command => command = .history
  | .actions steps => steps.any Action.looksBack

def Owner.silent (owner : Owner σ) : Owner σ :=
  { owner with
    history := fun _ => []
    deleteEntry := owner.deleteEntry.map fun _ _ state => (false, state) }

def Context.forget (context : Context) : Context :=
  { context with history := [] }

variable {owner : Owner σ} {context : Context}

namespace Builtin

private theorem copyFiles_forget (paths : List String) :
    (copyFiles context.forget paths : Act σ ExitCode) = copyFiles context paths := by
  induction paths with
  | nil => rfl
  | cons path rest ih =>
      rw [copyFiles, copyFiles, ih]
      rfl

private theorem windowFiles_forget (command : String)
    (select : List String → List String) (headings : Bool) (index : Nat)
    (paths : List String) :
    (windowFiles command select context.forget headings index paths : Act σ
      ExitCode) =
      windowFiles command select context headings index paths := by
  induction paths generalizing index with
  | nil => rfl
  | cons path rest ih =>
      rw [windowFiles, windowFiles, ih]
      rfl

private theorem run_silent {builtin : Builtin} (hforward : builtin ≠ .history)
    (command : Instance) :
    run owner.silent context.forget command builtin = run owner context command
      builtin := by
  cases builtin with
  | cat =>
      change runCat context.forget = runCat context
      unfold runCat
      rw [copyFiles_forget]
      rfl
  | head | tail =>
      change runWindow _ _ context.forget = runWindow _ _ context
      unfold runWindow
      rw [windowFiles_forget]
      rfl
  | history => exact absurd rfl hforward
  | echo | grep | pwd | cd | help | log => rfl

end Builtin

namespace Action

private theorem perform_silent {action : Action}
    (hforward : action.looksBack = false) :
    action.perform owner.silent context.forget = action.perform owner context := by
  cases action with
  | history | deleteEntry => cases hforward
  | _ => rfl

private theorem performAll_silent {steps : List Action}
    (hforward : steps.any looksBack = false) :
    performAll owner.silent context.forget steps = performAll owner context
      steps := by
  induction steps with
  | nil => rfl
  | cons action rest ih =>
      rw [List.any_cons, Bool.or_eq_false_iff] at hforward
      rw [performAll, performAll, perform_silent hforward.1, ih hforward.2]

end Action

private theorem Instance.run_silent {command : Instance}
    (hforward : command.program.looksBack = false) :
    command.run owner.silent context.forget = command.run owner context := by
  unfold Instance.run
  cases Table.get? programSlot command.values with
  | some value => cases command.program <;> rfl
  | none =>
      cases hprogram : command.program with
      | builtin builtin =>
          rw [hprogram] at hforward
          simp only [Builtin.run_silent (of_decide_eq_false hforward)]
      | actions steps =>
          rw [hprogram] at hforward
          exact Action.performAll_silent hforward

namespace Execution

open Act

variable {home : String} {pipeline : BoundPipeline}

private theorem runCommand_silent {bound : BoundCommand}
    (hforward : bound.command.program.looksBack = false) (input : Source) :
    runCommand owner.silent (commands owner.silent) home bound input =
      runCommand owner (commands owner) home bound input := by
  apply Act.ext
  intro session
  rw [runCommand, runCommand, outcome_bind, outcome_bind]
  change outcome (tryCatch (do lift (← bound.command.run owner.silent
      (Context.forget ⟨input, bound.arguments, session.directory, home,
        session.previous, owner.history session.owner, true⟩)).exitCode)
          (recover bound)) session = _
  rw [Instance.run_silent hforward]
  rfl

private theorem runStages_silent
    (hforward : ∀ bound ∈ pipeline, bound.command.program.looksBack = false)
    (index : Nat) (current : Source) :
    runStages owner.silent (commands owner.silent) home index current pipeline =
      runStages owner (commands owner) home index current pipeline := by
  induction pipeline generalizing index current with
  | nil => rfl
  | cons bound rest ih =>
      obtain ⟨hbound, hrest⟩ := List.forall_mem_cons.mp hforward
      simp only [runStages, runCommand_silent hbound, ih hrest]

theorem interpret_congr {text text' : String}
    (hparse : Pipeline.parse text = Pipeline.parse text')
    (hnotes : readingNotes text = readingNotes text') (parsers : Parsers)
    (input : Source) :
    interpret owner parsers home input text = interpret owner parsers home input
      text' := by
  have hreading : (parse text : Act σ (Option Pipeline)) = parse text' := by
    apply Act.ext
    intro session
    rw [outcome_parse, outcome_parse, hparse, hnotes]
  unfold interpret interpretWith
  rw [hreading]

variable {K : Place σ → Place σ → Prop}

private theorem linked_noted {session session' : Session σ}
    (hlinked : Session.Linked Eq K session session') (notes : List Journal.Note) :
    Session.Linked Eq K (session.noted notes) (session'.noted notes) :=
  { hlinked with machine := congrArg (Machine.noteAll · notes) hlinked.machine }

private theorem linked_execute (howner : Owner.Linked K owner.silent owner.silent)
    (hforward : ∀ bound ∈ pipeline, bound.command.program.looksBack = false)
    (input : Source) :
    Related (Session.Linked Eq K)
      (execute owner (commands owner) home input pipeline)
      (execute owner (commands owner) home input pipeline) := by
  unfold execute
  rw [← runStages_silent hforward]
  refine linked_sameStages Machine.seen_eq.toSteady howner (fun bound _ context =>
    ?_) 0 input
  exact bound.command.linked_run Machine.seen_eq howner context fun _ =>
    Machine.recorded_eq

theorem linked_interpret (howner : Owner.Linked K owner.silent owner.silent)
    {session session' : Session σ} (hlinked : Session.Linked Eq K session session')
    {parsers : Parsers} {text : String}
    (hforward : ∀ bound ∈ session'.registry.commandsOf parsers text,
      bound.command.program.looksBack = false) (input : Source) :
    (outcome (interpret owner parsers home input text) session).1 =
        (outcome (interpret owner parsers home input text) session').1 ∧
      Session.Linked Eq K (outcome (interpret owner parsers home input text)
        session).2 (outcome (interpret owner parsers home input text)
          session').2 := by
  unfold interpret
  cases hparse : Pipeline.parse text with
  | error error =>
      rw [outcome_interpretWith_of_parse_error _ _ _ _ _ hparse,
        outcome_interpretWith_of_parse_error _ _ _ _ _ hparse]
      exact ⟨rfl, linked_noted hlinked _⟩
  | ok found =>
      cases found with
      | none =>
          unfold interpretWith
          rw [outcome_bind, outcome_bind, outcome_parse, outcome_parse, hparse]
          exact ⟨rfl, linked_noted hlinked _⟩
      | some pipeline =>
          rcases hbind : session'.registry.bind parsers pipeline with
            ⟨notes, fault | bound⟩
          · rw [outcome_interpretWith_of_parse _ _ _ _ _ hparse
              (hlinked.registry ▸ hbind),
              outcome_interpretWith_of_parse _ _ _ _ _ hparse hbind]
            exact ⟨rfl, linked_noted hlinked _⟩
          · rw [outcome_interpretWith_of_parse _ _ _ _ _ hparse
              (hlinked.registry ▸ hbind),
              outcome_interpretWith_of_parse _ _ _ _ _ hparse hbind]
            have hbound : session'.registry.commandsOf parsers text = bound := by
              rw [Registry.commandsOf, hparse]
              simp only [hbind]
              rfl
            rw [hbound] at hforward
            exact linked_execute howner hforward input _ _ (linked_noted hlinked _)

end Execution

namespace Terminal

open Act

/-- The same place for the executor and for the terminal, whatever has been typed
before. -/
structure SamePlace (place place' : Place Memory) : Prop where
  directory : place.directory = place'.directory
  previous : place.previous = place'.previous
  whereabouts : place.owner.whereabouts = place'.owner.whereabouts

private theorem linked_silent :
    Owner.Linked SamePlace Terminal.owner.silent Terminal.owner.silent where
  directory := SamePlace.directory
  previous := SamePlace.previous
  history _ := rfl
  moved hplace path := by
    refine ⟨rfl, congrArg some hplace.directory, ?_⟩
    have henter := congrArg (Whereabouts.enter · path) hplace.whereabouts
    exact (whereabouts_enter _ path).trans
      (henter.trans (whereabouts_enter _ path).symm)
  clearing := rfl
  cleared := by
    rintro place place' _ _ ⟨⟩ ⟨⟩ hplace
    exact ⟨hplace.directory, hplace.previous, hplace.whereabouts⟩
  deleting := rfl
  deleted := by
    rintro place place' _ _ ⟨⟩ ⟨⟩ hplace position
    exact ⟨rfl, hplace⟩

/-- The terminals are the same but for what has been typed before. -/
def SameButHistory (left right : Terminal) : Prop :=
  ∃ memory, left = { right with memory } ∧
    memory.whereabouts = right.memory.whereabouts

def LooksAhead (terminal : Terminal) (text : String) : Prop :=
  ∀ bound ∈ terminal.registry.commandsOf terminal.parsers text,
    bound.command.program.looksBack = false

instance (terminal : Terminal) (text : String) :
    Decidable (terminal.LooksAhead text) :=
  inferInstanceAs (Decidable (∀ bound ∈ _, _))

variable {left right : Terminal} {text text' : String}

private theorem linked_sessions (hsame : SameButHistory left right)
    (streams : Streams) :
    Session.Linked Eq SamePlace (left.sessionFor streams)
      (right.sessionFor streams) := by
  obtain ⟨memory, rfl, hwhereabouts⟩ := hsame
  have hdirectory : memory.directory = right.memory.directory :=
    congrArg Whereabouts.directory hwhereabouts
  have hprevious : memory.previous = right.memory.previous :=
    congrArg Whereabouts.previous hwhereabouts
  exact ⟨rfl, ⟨hdirectory, hprevious, hwhereabouts⟩, rfl, rfl, rfl, rfl, rfl⟩

private theorem sameButHistory_recorded (hsame : SameButHistory left right)
    {recorded recorded' : Terminal}
    (hleft : left.addHistory text = (.ok (), recorded))
    (hright : right.addHistory text' = (.ok (), recorded')) :
    SameButHistory recorded recorded' := by
  obtain ⟨memory, rfl, hwhereabouts⟩ := hsame
  obtain ⟨hrecorded, hplace⟩ := addHistory_recorded hleft
  obtain ⟨hrecorded', hplace'⟩ := addHistory_recorded hright
  refine ⟨recorded.memory, ?_, hplace.trans (hwhereabouts.trans hplace'.symm)⟩
  rw [hrecorded, hrecorded']

private theorem sameButHistory_settle (hsame : SameButHistory left right)
    {ended ended' : Except Fault ExitCode × Session Memory}
    (hresult : ended.1 = ended'.1)
    (hafter : Session.Linked Eq SamePlace ended.2 ended'.2) :
    (left.ended ended).settle.1 = (right.ended ended').settle.1 ∧
      SameButHistory (left.ended ended).settle.2 (right.ended ended').settle.2 := by
  obtain ⟨memory, rfl, -⟩ := hsame
  refine ⟨hresult, ended.2.owner, ?_, hafter.place.whereabouts⟩
  simp only [Terminal.ended, LineResult.settle, absorb, hafter.machine,
    hafter.registry, hafter.out, hafter.err]

theorem runLine_sameButHistory (hsame : SameButHistory left right)
    (hvalid : right.config.defect? = none) (hblank : Text.allBlank text = false)
    (hblank' : Text.allBlank text' = false)
    (hparse : Pipeline.parse text = Pipeline.parse text')
    (hnotes : Execution.readingNotes text = Execution.readingNotes text')
    (hahead : right.LooksAhead text') (input : Source) (cancelled : Bool) :
    (left.runLine input cancelled text).1 = (right.runLine input cancelled text').1 ∧
      SameButHistory (left.runLine input cancelled text).2
        (right.runLine input cancelled text').2 := by
  have hstreams : left.ownStreams input cancelled = right.ownStreams input
      cancelled := by
    obtain ⟨memory, rfl, -⟩ := hsame
    rfl
  have hvalid' : left.config.defect? = none := by
    obtain ⟨memory, rfl, -⟩ := hsame
    exact hvalid
  obtain ⟨memory, hleft⟩ := addHistory_of_valid hvalid' text
  obtain ⟨memory', hright⟩ := addHistory_of_valid hvalid text'
  have hrecorded := sameButHistory_recorded hsame hleft hright
  have hlinked := linked_sessions hrecorded (right.ownStreams input cancelled)
  have hact : Execution.interpret owner left.parsers left.home input text =
      Execution.interpret owner right.parsers right.home input text' := by
    obtain ⟨memory, rfl, -⟩ := hsame
    exact Execution.interpret_congr hparse hnotes _ _
  obtain ⟨hresult, hafter⟩ :=
    @Execution.linked_interpret _ _ right.home _ linked_silent _ _ hlinked _ _
      hahead input
  obtain ⟨hresult, hafter⟩ :=
    related_orElse (linked_reportFailure Machine.seen_eq.toSteady) hresult hafter
  rw [runLine, runLine, hstreams, runOn_of_added hblank hleft,
    runOn_of_added hblank' hright]
  change
    (Terminal.ended _ (orElse reportFailure (outcome
      (Execution.interpret owner left.parsers left.home input text)
        _))).settle.1 = _ ∧
    SameButHistory (Terminal.ended _ (orElse reportFailure (outcome
      (Execution.interpret owner left.parsers left.home input text) _))).settle.2 _
  rw [hact]
  exact sameButHistory_settle hrecorded hresult hafter

end Terminal

end PipeShell
