import PipeShell.Proofs.Commands
import PipeShell.Terminal

namespace PipeShell

open Channel (Source)

/-- The directory, and the one before it. -/
@[ext]
structure Whereabouts where
  directory : String
  previous : Option String
  deriving DecidableEq, Repr

namespace Whereabouts

def follow (place : Whereabouts) (path : String) : Whereabouts :=
  ⟨path, some place.directory⟩

/-- A move to the same directory does not count. -/
def enter (place : Whereabouts) (path : String) : Whereabouts :=
  if path = place.directory then place else ⟨path, some place.directory⟩

/-- There have been no moves, or the last one led to another directory, or all of
them stayed where the directory was the one before as well. -/
def InStep (start : Whereabouts) (moves : List String) : Prop :=
  moves = [] ∨ (start.directory :: moves).dropLast.getLast? ≠ moves.getLast? ∨
    (start.previous = some start.directory ∧ ∀ path ∈ moves, path = start.directory)

instance (start : Whereabouts) (moves : List String) :
    Decidable (InStep start moves) :=
  inferInstanceAs (Decidable (_ ∨ _ ∨ _))

theorem directory_enter (place : Whereabouts) (path : String) :
    (place.enter path).directory = path := by
  unfold enter
  split
  · rename_i hsame
    exact hsame.symm
  · rfl

theorem getLast?_moves {step : Whereabouts → String → Whereabouts}
    (hstep : ∀ place path, (step place path).directory = path) (start : Whereabouts)
    (moves : List String) :
    (start.directory :: moves).getLast? =
      some (moves.foldl step start).directory := by
  induction moves generalizing start with
  | nil => rfl
  | cons path rest ih => rw [List.getLast?_cons_cons, List.foldl_cons, ← ih, hstep]

theorem directory_foldl (start : Whereabouts) (moves : List String) :
    (moves.foldl follow start).directory = (moves.foldl enter start).directory := by
  have hfollow := getLast?_moves (fun _ _ => rfl : ∀ place path,
    (follow place path).directory = path)
    start moves
  rw [getLast?_moves directory_enter] at hfollow
  exact (Option.some.inj hfollow).symm

private theorem previous_eq_directory_iff (start : Whereabouts)
    (moves : List String) :
    (moves.foldl enter start).previous = some (moves.foldl enter start).directory ↔
      start.previous = some start.directory ∧
        ∀ path ∈ moves, path = start.directory := by
  induction moves generalizing start with
  | nil => simp
  | cons path rest ih =>
      rw [List.foldl_cons, ih, List.forall_mem_cons]
      by_cases hsame : path = start.directory
      · rw [enter, if_pos hsame]
        simp only [hsame, true_and]
      · rw [enter, if_neg hsame]
        constructor
        · rintro ⟨hprevious, -⟩
          exact absurd (Option.some.inj hprevious).symm hsame
        · rintro ⟨-, hpath, -⟩
          exact absurd hpath hsame

/-- Following and entering agree exactly as long as they are in step. -/
theorem foldl_eq_iff (start : Whereabouts) (moves : List String) :
    moves.foldl follow start = moves.foldl enter start ↔ InStep start moves := by
  rcases List.eq_nil_or_concat moves with rfl | ⟨initial, path, rfl⟩
  · exact ⟨fun _ => .inl rfl, fun _ => rfl⟩
  · have hdirectory := directory_enter (initial.foldl enter start) path
    have hstays := previous_eq_directory_iff start (initial ++ [path])
    have hstart : (start.directory :: (initial ++ [path])).dropLast.getLast? =
        some (initial.foldl enter start).directory := by
      rw [← List.cons_append, List.dropLast_concat, getLast?_moves directory_enter]
    rw [List.foldl_append, List.foldl_cons, List.foldl_nil] at hstays
    rw [List.concat_eq_append, InStep, hstart, List.getLast?_concat,
      List.foldl_append, List.foldl_append, List.foldl_cons, List.foldl_cons,
      List.foldl_nil, List.foldl_nil, ← hstays, follow, directory_foldl]
    by_cases hsame : path = (initial.foldl enter start).directory
    -- Only the follower takes the last move for one, and now has the same directory
    -- twice.
    · constructor
      · intro hequal
        refine .inr (.inr ?_)
        rw [← hequal, hsame]
      · rintro (hnil | hmoved | hstayed)
        · exact absurd hnil (by simp)
        · exact absurd (congrArg some hsame.symm) hmoved
        · rw [hdirectory] at hstayed
          exact Whereabouts.ext hdirectory.symm (by rw [hstayed, hsame])
    · rw [enter, if_neg hsame]
      exact ⟨fun _ => .inr (.inl fun heq => hsame (Option.some.inj heq).symm),
        fun _ => rfl⟩

end Whereabouts

namespace Terminal

open Act
open Whereabouts (InStep follow enter)

def Memory.whereabouts (memory : Memory) : Whereabouts :=
  ⟨memory.directory, memory.previous⟩

/-- The end of a stage: the moves on the line so far, and where the executor and the
terminal are. -/
structure Stage where
  moves : List String
  executor : Whereabouts
  terminal : Whereabouts
  deriving DecidableEq, Repr

structure Trail where
  moves : List String
  stages : List Stage
  deriving DecidableEq, Repr

/-- What the terminal offers to its commands, while every move is written down. -/
def observer : Owner (Memory × Trail) where
  directoryChanged path state :=
    (owner.directoryChanged path state.1,
      { state.2 with moves := state.2.moves ++ [path] })
  history state := owner.history state.1
  clearHistory := some fun state => (state.1.clearHistory, state.2)
  deleteEntry := some fun position state =>
    ((state.1.deleteEntry position).1, (state.1.deleteEntry position).2, state.2)

def look (session : Session (Memory × Trail)) : Session (Memory × Trail) :=
  let (memory, trail) := session.owner
  let stage : Stage :=
    ⟨trail.moves, ⟨session.directory, session.previous⟩, memory.whereabouts⟩
  { session with
    owner := (memory, { trail with stages := trail.stages ++ [stage] }) }

/-- The commands as they are, with a look after each of them. -/
def watched : Execution.Body (Memory × Trail) :=
  fun bound context => afterwards look (Execution.commands observer bound context)

def watchedSession (terminal : Terminal) (streams : Streams) :
    Session (Memory × Trail) :=
  { terminal.sessionFor streams with owner := (terminal.memory, ⟨[], []⟩) }

def observe (terminal : Terminal) (streams : Streams) (text : String) :
    LineResult × Trail :=
  if Text.allBlank text then
    (⟨.ok .success, terminal, streams.out, streams.err⟩, ⟨[], []⟩)
  else
    match terminal.addHistory text with
    | (.error fault, terminal) =>
        (⟨.error fault, terminal, streams.out, streams.err⟩, ⟨[], []⟩)
    | (.ok (), terminal) =>
        let act := tryCatch
          (Execution.interpretWith observer watched terminal.parsers terminal.home
            streams.input text) reportFailure
        let (result, session) := outcome act (terminal.watchedSession streams)
        (⟨result, terminal.absorb { session with owner := session.owner.1 },
          session.out, session.err⟩, session.owner.2)

/-- The observed session is the one that is not observed, and what has been written
down is true. -/
structure Observed (start : Whereabouts) (place : Place (Memory × Trail))
    (place' : Place Memory) : Prop where
  unobserved : place' = ⟨place.directory, place.previous, place.owner.1⟩
  executor : ⟨place.directory, place.previous⟩ = place.owner.2.moves.foldl
    follow start
  terminal : place.owner.1.whereabouts = place.owner.2.moves.foldl enter start
  stages : ∀ stage ∈ place.owner.2.stages,
    stage.executor = stage.moves.foldl follow start ∧
      stage.terminal = stage.moves.foldl enter start

theorem whereabouts_enter (memory : Memory) (path : String) :
    (memory.enter path).whereabouts = memory.whereabouts.enter path := by
  unfold Memory.enter Whereabouts.enter Memory.whereabouts
  split <;> rfl

theorem whereabouts_deleteEntry (memory : Memory) (position : Int) :
    (memory.deleteEntry position).2.whereabouts = memory.whereabouts := by
  unfold Memory.deleteEntry
  split <;> rfl

theorem observer_linked (start : Whereabouts) :
    Owner.Linked (Observed start) observer owner where
  directory hplace := by rw [hplace.unobserved]
  previous hplace := by rw [hplace.unobserved]
  history hplace := by rw [hplace.unobserved]; rfl
  moved hplace path := by
    rw [hplace.unobserved]
    refine ⟨rfl, ?_, ?_, hplace.stages⟩
    · exact (List.foldl_append.trans (by rw [← hplace.executor]; rfl)).symm
    · exact ((List.foldl_append.trans (by rw [← hplace.terminal]; rfl)).trans
        (whereabouts_enter _ path).symm).symm
  clearing := rfl
  cleared hleft hright hplace := by
    cases hleft
    cases hright
    rw [hplace.unobserved]
    exact ⟨rfl, hplace.executor, hplace.terminal, hplace.stages⟩
  deleting := rfl
  deleted hleft hright hplace position := by
    cases hleft
    cases hright
    rw [hplace.unobserved]
    refine ⟨rfl, rfl, hplace.executor, ?_, hplace.stages⟩
    exact (whereabouts_deleteEntry _ position).trans hplace.terminal

private theorem watched_linked (start : Whereabouts) (bound : BoundCommand)
    (context : Context) :
    Related (Session.Linked Eq (Observed start)) (watched bound context)
      (Execution.commands owner bound context) := by
  have hcommand : Related (Session.Linked Eq (Observed start))
      (Execution.commands observer bound context)
        (Execution.commands owner bound context) :=
    bound.command.linked_run Machine.seen_eq (observer_linked start) context
      fun _ => Machine.recorded_eq
  rw [← afterwards_id (Execution.commands owner bound context)]
  refine related_afterwards (fun before before' hbefore => ?_) hcommand
  have hplace := hbefore.place
  refine { hbefore with place :=
    ⟨hplace.unobserved, hplace.executor, hplace.terminal, ?_⟩ }
  intro stage member
  rcases List.mem_append.mp member with member | member
  · exact hplace.stages stage member
  · obtain rfl := List.mem_singleton.mp member
    exact ⟨hplace.executor, hplace.terminal⟩

theorem linked_reportFailure {σ τ : Type} {M : Machine → Machine → Prop}
    {N : Journal.Note → Journal.Note → Prop} {K : Place σ → Place τ → Prop}
    (hsteady : Machine.Steady M N) (fault : Fault) :
    Related (Session.Linked M K) (reportFailure fault) (reportFailure fault) := by
  unfold reportFailure
  split
  · split
    · exact related_bind (linked_note hsteady (hsteady.same _)) fun _ =>
        related_bind (linked_reportLine hsteady _) fun _ => related_pure _
    · exact related_bind (linked_note hsteady (hsteady.same _)) fun _ =>
        related_bind (linked_reportLine hsteady _) fun _ => related_pure _
    · exact related_bind (linked_note hsteady (hsteady.same _)) fun _ =>
        related_bind (linked_reportLine hsteady _) fun _ => related_pure _
    · exact related_throw _
  · exact related_throw _

private theorem whereabouts_addLine (memory : Memory) (ignoreDuplicates : Bool)
    (line : String) :
    (memory.addLine ignoreDuplicates line).whereabouts = memory.whereabouts := by
  unfold Memory.addLine
  split
  · rfl
  · split <;> rfl

private theorem whereabouts_trim {memory trimmed : Memory} {limit : Json}
    (htrim : memory.trim limit = .ok trimmed) :
    trimmed.whereabouts = memory.whereabouts := by
  unfold Memory.trim at htrim
  cases hcount : overflow memory.history.length limit with
  | error fault => rw [hcount] at htrim; cases htrim
  | ok count =>
      rw [hcount] at htrim
      cases htrim
      rfl

theorem whereabouts_addHistory (terminal : Terminal) (line : String) :
    (terminal.addHistory line).2.memory.whereabouts =
      terminal.memory.whereabouts := by
  unfold addHistory
  dsimp only
  split
  · rfl
  · split
    · rename_i trimmed htrim
      exact (whereabouts_trim htrim).trans (whereabouts_addLine _ _ _)
    · exact whereabouts_addLine _ _ _

theorem linked_line (terminal : Terminal) (streams : Streams) (text : String) :
    Related (Session.Linked Eq (Observed terminal.memory.whereabouts))
      (tryCatch (Execution.interpretWith observer watched terminal.parsers
        terminal.home streams.input text) reportFailure)
      (tryCatch (Execution.interpret owner terminal.parsers terminal.home
        streams.input text) reportFailure) :=
  related_tryCatch
    (Execution.linked_interpretWith Machine.seen_eq.toSteady (observer_linked _)
      (watched_linked _) terminal.parsers terminal.home streams.input text)
      (linked_reportFailure Machine.seen_eq.toSteady)

private theorem linked_sessionFor (terminal : Terminal) (streams : Streams) :
    Session.Linked Eq (Observed terminal.memory.whereabouts)
      (terminal.watchedSession streams) (terminal.sessionFor streams) :=
  ⟨rfl, ⟨rfl, rfl, rfl, nofun⟩, rfl, rfl, rfl, rfl, rfl⟩

private theorem absorb_eq {start : Whereabouts} (terminal : Terminal)
    {session : Session (Memory × Trail)} {session' : Session Memory}
    (hlinked : Session.Linked Eq (Observed start) session session') :
    terminal.absorb { session with owner := session.owner.1 } =
      terminal.absorb session' := by
  have hmemory : session'.owner = session.owner.1 :=
    congrArg Place.owner hlinked.place.unobserved
  simp only [absorb, hlinked.machine, hlinked.registry, hmemory]

/-- Observing a line changes nothing, and the line leaves the terminal where the
moves led it. After each stage, the executor and the terminal are in the same
directory, and agree about the one before exactly if they are in step. -/
theorem observe_agrees (terminal : Terminal) (streams : Streams) (text : String) :
    let start := terminal.memory.whereabouts
    let (result, trail) := terminal.observe streams text
    result = terminal.runOn streams text ∧
      result.terminal.memory.whereabouts = trail.moves.foldl enter start ∧
      ∀ stage ∈ trail.stages,
        stage.executor.directory = stage.terminal.directory ∧
          (stage.executor = stage.terminal ↔ InStep start stage.moves) := by
  have hstart := whereabouts_addHistory terminal text
  unfold observe runOn
  by_cases hblank : Text.allBlank text = true
  · rw [if_pos hblank, if_pos hblank]
    exact ⟨rfl, rfl, nofun⟩
  · rw [if_neg hblank, if_neg hblank]
    rcases hadded : terminal.addHistory text with ⟨fault | _, added⟩
    · rw [hadded] at hstart
      exact ⟨rfl, hstart, nofun⟩
    · rw [hadded] at hstart
      obtain ⟨hresult, hafter⟩ := linked_line added streams text _ _
        (linked_sessionFor added streams)
      refine ⟨?_, ?_, ?_⟩
      · change LineResult.mk _ (absorb added _) _ _ =
          LineResult.mk _ (absorb added _) _ _
        rw [LineResult.mk.injEq]
        exact ⟨hresult, absorb_eq added hafter, hafter.out, hafter.err⟩
      · rw [← hstart]
        exact hafter.place.terminal
      · intro stage member
        obtain ⟨hexecutor, hterminal⟩ := hafter.place.stages stage member
        rw [hexecutor, hterminal, ← hstart]
        exact ⟨Whereabouts.directory_foldl _ _, Whereabouts.foldl_eq_iff _ _⟩

/-! A change to the same directory, followed by a way back. -/

def sampleTerminal : Terminal :=
  { config := .default
    machine := Machine.new ((FileTree.empty.plant "/a" .directory).plant "/home/user"
      .directory)
      "/home/user" 0 false
    home := "/home/user"
    memory := ⟨"/home/user", none, []⟩
    registry := (Registry.empty.registerBuiltins []).registry
    parsers := []
    out := .text ""
    err := .text "" }

def sampleStreams : Streams := sampleTerminal.ownStreams .empty false

theorem cd_in_place_disagrees :
    (∃ stage ∈ (sampleTerminal.observe sampleStreams "cd /a | cd . | cd -").2.stages,
        stage.executor ≠ stage.terminal) ∧
      (sampleTerminal.runOn sampleStreams
        "cd /a | cd . | cd -").terminal.memory.whereabouts =
        ⟨"/a", some "/home/user"⟩ ∧
      (sampleTerminal.runLinesOn sampleStreams
        ["cd /a", "cd .", "cd -"]).terminal.memory.whereabouts =
          ⟨"/home/user", some "/a"⟩ := by
  decide +kernel

end Terminal

end PipeShell
