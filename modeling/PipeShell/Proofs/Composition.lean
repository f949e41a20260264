import PipeShell.Proofs.Calls
import PipeShell.Proofs.Commands
import PipeShell.Proofs.JournalRecords
import PipeShell.Proofs.Stages

namespace PipeShell.Execution

open Act
open Channel (Source Writer)

variable {σ : Type} {owner : Owner σ} {body : Body σ} {home : String}

/-- Sessions that are the same but for what has been recorded in the journal, which
may also write to a file. -/
abbrev SameButRecords (file : Option (List String)) (left right : Session σ) :
    Prop :=
  Session.Linked (Machine.SameButRecords file) Eq left right

/-- A call that does not look at the records of the journal. -/
abbrev Unrecorded (file : Option (List String)) (body : Body σ) (call : Call σ) :
    Prop :=
  call.Blind (Machine.SameButRecords file) body

private theorem sameButRecords_refl (session : Session σ) :
    SameButRecords session.machine.journalFile session session :=
  ⟨.refl _, rfl, rfl, rfl, rfl, rfl, rfl⟩

private theorem owner_linked_self (owner : Owner σ) :
    Owner.Linked Eq owner owner where
  directory := congrArg Place.directory
  previous := congrArg Place.previous
  history := fun hplace => by rw [hplace]
  moved := fun hplace path => by rw [hplace]
  clearing := rfl
  cleared := fun hleft hright hplace => by
    cases hleft.symm.trans hright
    rw [hplace]
  deleting := rfl
  deleted := fun hleft hright hplace position => by
    cases hleft.symm.trans hright
    rw [hplace]
    exact ⟨rfl, rfl⟩

/-- Only the command that shows the journal looks at its records, and those that
read the file in which they stand. -/
theorem unrecorded_commands {file : Option (List String)} {call : Call σ}
    (hlog : call.bound.command.program ≠ .builtin .log)
    (hfiles : file = none ∨ ∃ builtin,
      call.bound.command.program = .builtin builtin ∧
        builtin.Fileless call.context) :
    Unrecorded file (commands owner) call := by
  rcases hfiles with rfl | ⟨builtin, hprogram, hfileless⟩
  · exact call.bound.command.linked_run Machine.seen_sameButRecords
      (owner_linked_self owner) call.context (fun hprogram => absurd hprogram hlog)
      call.session
  · exact call.bound.command.linked_run_builtin (Machine.steady_sameButRecords file)
      (owner_linked_self owner) hprogram (fun h => absurd (h ▸ hprogram) hlog)
      (.inl hfileless) call.session

def executeIntoBuffer (owner : Owner σ) (body : Body σ) (home : String)
    (input : Source) (pipeline : BoundPipeline) : Act σ (ExitCode × Writer) :=
  withOutput (.lines .empty) (execute owner body home input pipeline)

/-- Runs two pipelines in turn, the second on the lines that the first has written if
that has succeeded. -/
def executeInTurn (owner : Owner σ) (body : Body σ) (home : String) (input : Source)
    (first second : BoundPipeline) : Act σ ExitCode := do
  match ← executeIntoBuffer owner body home input first with
  | (.success, .lines buffer) =>
      execute owner body home (.lines buffer.flush.lines.toList) second
  -- A body that puts another writer in the place of the buffer hands over nothing.
  | (.success, _) => execute owner body home .empty second
  | (code, _) => return code

private theorem executeInTurn_eq (input : Source) (first second : BoundPipeline) :
    executeInTurn owner body home input first second =
      executeIntoBuffer owner body home input first >>=
        resume (execute owner body home · second) := by
  refine bind_congr fun ended => ?_
  obtain ⟨code, written⟩ := ended
  cases code with
  | success => cases written <;> rfl
  | runtimeError | usageError => rfl

/-- The whole is its first part and then the rest, with the stages numbered on. To
number them from the start again makes a difference to nobody, unless a command of
the rest looks at the records when it is called. If the first part does not succeed,
its outcome is the outcome of the whole: nothing of the rest is run, and nothing is
written to the output. -/
theorem execute_append {first second : BoundPipeline} (hfirst : first ≠ [])
    (hsecond : second ≠ []) (hstdout : ∀ bound ∈ first,
      bound.redirections.stdout = none)
    (hstdin : ∀ bound ∈ second.head?, bound.redirections.stdin = none)
    (input : Source) (session : Session σ) :
    let whole := outcome (execute owner body home input (first ++ second)) session
    let inTurn := outcome (executeInTurn owner body home input first second) session
    let part := outcome (executeIntoBuffer owner body home input first) session
    let file := part.2.machine.journalFile
    whole = andThen (resume (runStages owner body home first.length · second)) part ∧
      ((∀ written, part.1 = .ok (.success, written) →
          ∀ call ∈ callsFrom owner body home first.length (handedOver written) second
            part.2, Unrecorded file body call) →
        whole.1 = inTurn.1 ∧ SameButRecords file whole.2 inTurn.2) ∧
      ((∀ written, part.1 ≠ .ok (.success, written)) →
        whole = (part.1.map Prod.fst, part.2) ∧ whole.2.out = session.out) := by
  intro whole inTurn part file
  have hwhole :
      whole = andThen (resume (runStages owner body home first.length · second))
        part := by
    simp only [whole, part]
    rw [execute, runStages_append hfirst hsecond hstdout, outcome_bind, Nat.zero_add]
    rfl
  have hinTurn : inTurn = andThen (resume (runStages owner body home 0 · second))
      part := by
    simp only [inTurn, part]
    rw [executeInTurn_eq, outcome_bind]
    rfl
  have hout : part.2.out = session.out := rfl
  refine ⟨hwhole, ?_⟩
  rw [hwhole, hinTurn]
  simp only [file]
  obtain ⟨fault | ⟨code, written⟩, after⟩ := part
  · exact ⟨fun _ => ⟨rfl, sameButRecords_refl after⟩, fun _ => ⟨rfl, hout⟩⟩
  · by_cases hcode : code = .success
    · subst hcode
      refine ⟨fun hcalls => ?_, fun hfailed => absurd rfl (hfailed written)⟩
      exact linked_of_calls (Machine.steady_sameButRecords _) first.length 0
        ⟨fun _ _ => rfl, fun _ _ _ => rfl⟩
        (fun bound member => .inl (hstdin bound member)) (sameButRecords_refl after)
        (hcalls written rfl)
    · have hresume : ∀ rest : Source → Act σ ExitCode,
          resume rest (code, written) = pure code := fun rest => if_pos hcode
      rw [andThen, andThen, hresume, hresume]
      exact ⟨fun _ => ⟨rfl, sameButRecords_refl after⟩, fun _ => ⟨rfl, hout⟩⟩

/-! A pipeline whose stages are recorded, on the console and in a file as well. -/

def sampleCommand (name : String) (builtin : Builtin) (arguments : List String) :
    BoundCommand :=
  { command := ⟨name, name, [], .builtin builtin, .none⟩
    schema := ⟨name, "", [], name, .itself, .builtin builtin, .none⟩
    arguments
    redirections := ⟨none, none⟩ }

def sampleOwner : Owner Unit :=
  ⟨fun _ state => state, fun _ => [], none, none⟩

def sampleJournal : Journal :=
  { level := Journal.Level.debug.number
    capacity := 10
    entries := []
    console := some true
    file := some ["journal"] }

def sampleSession : Session Unit :=
  { machine :=
      { Machine.new .empty "/home" 0 true with journal := some sampleJournal }
    cancelled := false
    out := .text ""
    err := .text ""
    directory := "/"
    previous := none
    registry := .empty
    view := .shared
    owner := () }

def sampleFirst : BoundPipeline :=
  [sampleCommand "echo" .echo ["a"], sampleCommand "cat" .cat []]

def sampleSecond : BoundPipeline := [sampleCommand "cat" .cat []]

def samplePart : Except Fault (ExitCode × Writer) × Session Unit :=
  outcome (executeIntoBuffer sampleOwner (commands sampleOwner) "/" .empty
    sampleFirst)
    sampleSession

theorem unrecorded_sample :
    ∀ call ∈ callsFrom sampleOwner (commands sampleOwner) "/" 2 (.lines ["a"])
      sampleSecond samplePart.2,
    Unrecorded (some ["journal"]) (commands sampleOwner) call := by
  let told (call : Call Unit) :=
    (call.bound.command.program, call.context.arguments, call.context.input)
  have hcalls : (callsFrom sampleOwner (commands sampleOwner) "/" 2 (.lines ["a"])
      sampleSecond samplePart.2).map told =
        [(.builtin .cat, [], .lines ["a"])] := by rfl
  intro call member
  have htold : told call ∈ [_] := hcalls ▸ List.mem_map_of_mem member
  obtain ⟨hprogram, hothers⟩ := Prod.mk.inj (List.mem_singleton.mp htold)
  obtain ⟨harguments, hinput⟩ := Prod.mk.inj hothers
  refine unrecorded_commands (by rw [hprogram]; nofun)
    (.inr ⟨.cat, hprogram, harguments, fun path => ?_⟩)
  rw [hinput]
  nofun

theorem execute_append_sample :
    let whole := outcome
      (execute sampleOwner (commands sampleOwner) "/" .empty
        (sampleFirst ++ sampleSecond))
      sampleSession
    let inTurn := outcome
      (executeInTurn sampleOwner (commands sampleOwner) "/" .empty sampleFirst
        sampleSecond)
      sampleSession
    whole.1 = inTurn.1 ∧ SameButRecords (some ["journal"]) whole.2 inTurn.2 ∧
      whole.2.out = .text "a\n" := by
  have hpart : samplePart.1 = .ok (.success, .lines ⟨#["a"], ""⟩) := by rfl
  have hfile : samplePart.2.machine.journalFile = some ["journal"] := by rfl
  have hstdout : ∀ bound ∈ sampleFirst, bound.redirections.stdout = none := by
    simp [sampleFirst, sampleCommand]
  have hstdin : ∀ bound ∈ sampleSecond.head?, bound.redirections.stdin = none := by
    simp [sampleSecond, sampleCommand]
  obtain ⟨-, hturn, -⟩ := @execute_append Unit sampleOwner (commands sampleOwner) "/"
    sampleFirst sampleSecond nofun nofun hstdout hstdin .empty sampleSession
  rw [← samplePart, hfile] at hturn
  have hcalls : ∀ written, samplePart.1 = .ok (.success, written) →
      ∀ call ∈ callsFrom sampleOwner (commands sampleOwner) "/" sampleFirst.length
        (handedOver written) sampleSecond samplePart.2,
        Unrecorded (some ["journal"]) (commands sampleOwner) call := by
    intro written hwritten
    cases hpart.symm.trans hwritten
    exact unrecorded_sample
  obtain ⟨hresult, hsame⟩ := hturn hcalls
  exact ⟨hresult, hsame, by rfl⟩

/-- The stages are numbered anew, which the command that shows the journal tells. -/
theorem executeInTurn_renumbers :
    let first := [sampleCommand "echo" .echo ["a"]]
    let second := [sampleCommand "log" .log []]
    (outcome (execute sampleOwner (commands sampleOwner) "/" .empty
      (first ++ second))
        sampleSession).2.out.collected ≠
      (outcome (executeInTurn sampleOwner (commands sampleOwner) "/" .empty
        first second) sampleSession).2.out.collected := by
  decide +kernel

end PipeShell.Execution
