import PipeShell.Execution
import PipeShell.Proofs.Action

/-! Sessions that differ only in their machines and their owners, and there only as
far as two relations allow. Running the stages of a pipeline keeps such sessions
alike if every command does. -/

namespace PipeShell

open Channel (Source Writer)

variable {σ τ : Type}

structure Place (σ : Type) where
  directory : String
  previous : Option String
  owner : σ

def Session.place (session : Session σ) : Place σ :=
  ⟨session.directory, session.previous, session.owner⟩

structure Session.Linked (M : Machine → Machine → Prop)
    (K : Place σ → Place τ → Prop) (left : Session σ) (right : Session τ) :
    Prop where
  machine : M left.machine right.machine
  place : K left.place right.place
  cancelled : left.cancelled = right.cancelled
  out : left.out = right.out
  err : left.err = right.err
  registry : left.registry = right.registry
  view : left.view = right.view

def Agree {α β : Type} (P : α → β → Prop) : Except Fault α → Except Fault β → Prop
  | .ok value, .ok value' => P value value'
  | .error fault, .error fault' => fault = fault'
  | _, _ => False

theorem Agree.cases {α β : Type} {P : α → β → Prop} {left : Except Fault α}
    {right : Except Fault β} (hagree : Agree P left right) :
    (∃ fault, left = .error fault ∧ right = .error fault) ∨
      ∃ value value', left = .ok value ∧ right = .ok value' ∧ P value value' := by
  cases left <;> cases right
  · cases hagree
    exact .inl ⟨_, rfl, rfl⟩
  · cases hagree
  · cases hagree
  · exact .inr ⟨_, _, rfl, rfl, hagree⟩

theorem Agree.map {α β γ δ : Type} {P : α → β → Prop} {Q : γ → δ → Prop} {f : α → γ}
    {g : β → δ} {left : Except Fault α} {right : Except Fault β}
    (hagree : Agree P left right)
    (hvalues : ∀ value value', P value value' → Q (f value) (g value')) :
    Agree Q (left.map f) (right.map g) := by
  obtain ⟨fault, rfl, rfl⟩ | ⟨value, value', rfl, rfl, hvalue⟩ := hagree.cases
  · rfl
  · exact hvalues value value' hvalue

/-- The relation survives what the executor does to machines, if the notes that it
makes are related as well. -/
structure Machine.Steady (M : Machine → Machine → Prop)
    (N : Journal.Note → Journal.Note → Prop) : Prop where
  same : ∀ note, N note note
  note : ∀ {left right note note'}, M left right → N note note' →
    M (left.note note) (right.note note')
  isFile : ∀ {left right}, M left right → ∀ path,
    left.files.isFile path = right.files.isFile path
  isDirectory : ∀ {left right}, M left right → ∀ path,
    left.files.isDirectory path = right.files.isDirectory path
  contains : ∀ {left right}, M left right → ∀ path,
    left.files.contains path = right.files.contains path
  openOutput : ∀ {left right}, M left right → ∀ path append,
    Agree (fun opened opened' => M opened.1 opened'.1 ∧ opened.2 = opened'.2)
      (left.openOutput path append) (right.openOutput path append)
  closeOutput : ∀ {left right}, M left right → ∀ handle,
    M (left.closeOutput handle) (right.closeOutput handle)
  write : ∀ {left right}, M left right → ∀ (writer : Writer) text,
    Agree (fun written written' => written.1 = written'.1 ∧ M written.2 written'.2)
      (writer.write left text) (writer.write right text)
  writeLine : ∀ {left right}, M left right → ∀ (writer : Writer) line,
    Agree (fun written written' => written.1 = written'.1 ∧ M written.2 written'.2)
      (writer.writeLine left line) (writer.writeLine right line)

def Machine.SameFiles (M : Machine → Machine → Prop) : Prop :=
  ∀ left right, M left right → left.files = right.files

structure Machine.Seen (M : Machine → Machine → Prop)
    (N : Journal.Note → Journal.Note → Prop) : Prop extends Machine.Steady M N where
  files : Machine.SameFiles M
  print : ∀ {left right}, M left right →
    ∀ text, M (left.print text) (right.print text)

structure Machine.Recorded (M : Machine → Machine → Prop) : Prop where
  journal : ∀ {left right}, M left right → left.journal = right.journal
  clearJournal : ∀ {left right}, M left right →
    M left.clearJournal right.clearJournal

private theorem Agree.refl {α : Type} {P : α → α → Prop}
    (hsame : ∀ value, P value value) (result : Except Fault α) :
    Agree P result result := by
  cases result with
  | error fault => rfl
  | ok value => exact hsame value

theorem Machine.seen_eq : Machine.Seen Eq Eq where
  same _ := rfl
  note := by rintro machine _ note _ rfl rfl; rfl
  isFile := by rintro machine _ rfl _; rfl
  isDirectory := by rintro machine _ rfl _; rfl
  contains := by rintro machine _ rfl _; rfl
  openOutput := by rintro machine _ rfl _ _; exact .refl (fun _ => ⟨rfl, rfl⟩) _
  closeOutput := by rintro machine _ rfl _; rfl
  write := by rintro machine _ rfl _ _; exact .refl (fun _ => ⟨rfl, rfl⟩) _
  writeLine := by rintro machine _ rfl _ _; exact .refl (fun _ => ⟨rfl, rfl⟩) _
  files := by rintro machine _ rfl; rfl
  print := by rintro machine _ rfl _; rfl

theorem Machine.recorded_eq : Machine.Recorded Eq where
  journal := by rintro machine _ rfl; rfl
  clearJournal := by rintro machine _ rfl; rfl

/-- The owners keep their states related, and tell the same about them. -/
structure Owner.Linked (K : Place σ → Place τ → Prop) (left : Owner σ)
    (right : Owner τ) :
    Prop where
  directory : ∀ {place place'}, K place place' → place.directory = place'.directory
  previous : ∀ {place place'}, K place place' → place.previous = place'.previous
  history : ∀ {place place'}, K place place' →
    left.history place.owner = right.history place'.owner
  moved : ∀ {place place'}, K place place' → ∀ path,
    K ⟨path, some place.directory, left.directoryChanged path place.owner⟩
      ⟨path, some place'.directory, right.directoryChanged path place'.owner⟩
  clearing : left.clearHistory.isSome = right.clearHistory.isSome
  cleared : ∀ {place place' clear clear'}, left.clearHistory = some clear →
    right.clearHistory = some clear' → K place place' →
      K { place with owner := clear place.owner }
        { place' with owner := clear' place'.owner }
  deleting : left.deleteEntry.isSome = right.deleteEntry.isSome
  deleted : ∀ {place place' delete delete'}, left.deleteEntry = some delete →
    right.deleteEntry = some delete' → K place place' → ∀ position,
      (delete position place.owner).1 = (delete' position place'.owner).1 ∧
        K { place with owner := (delete position place.owner).2 }
          { place' with owner := (delete' position place'.owner).2 }

namespace Act

variable {α : Type} {M : Machine → Machine → Prop} {N : Journal.Note →
  Journal.Note → Prop}
  {K : Place σ → Place τ → Prop}

theorem linked_check : Related (Session.Linked M K) check check := by
  intro before before' hbefore
  rw [outcome_check, outcome_check, hbefore.cancelled]
  exact ⟨rfl, hbefore⟩

theorem linked_note (hsteady : Machine.Steady M N) {note note' : Journal.Note}
    (hnote : N note note') :
    Related (Session.Linked M K) (Act.note note) (Act.note note') :=
  related_modify fun _ _ hbefore =>
    { hbefore with machine := hsteady.note hbefore.machine hnote }

theorem linked_reportLine (hsteady : Machine.Steady M N) (line : String) :
    Related (Session.Linked M K) (reportLine line) (reportLine line) := by
  intro before before' hbefore
  rw [outcome_reportLine, outcome_reportLine, ← hbefore.err]
  obtain ⟨fault, hleft, hright⟩ | ⟨written, written', hleft, hright, herr,
    hmachine⟩ :=
    (hsteady.writeLine hbefore.machine before.err line).cases
  · rw [hleft, hright]
    exact ⟨rfl, hbefore⟩
  · rw [hleft, hright]
    exact ⟨rfl, { hbefore with machine := hmachine, err := herr }⟩

theorem linked_errorLine (hsteady : Machine.Steady M N) (line : String) :
    Related (Session.Linked M K) (errorLine line) (errorLine line) :=
  related_bind linked_check fun _ => linked_reportLine hsteady line

theorem linked_writing (put : Writer → Machine → Except Fault (Writer × Machine))
    (hput : ∀ machine machine', M machine machine' → ∀ writer,
      Agree (fun written written' => written.1 = written'.1 ∧ M written.2 written'.2)
        (put writer machine) (put writer machine')) :
    Related (Session.Linked M K)
      (session >>= fun before => lift (put before.out before.machine) >>=
        fun (out, machine) =>
        set { before with out, machine })
      (session >>= fun before => lift (put before.out before.machine) >>=
        fun (out, machine) =>
        set { before with out, machine }) := by
  refine related_session_bind fun before before' hbefore => ?_
  rw [outcome_bind, outcome_bind, outcome_lift, outcome_lift, ← hbefore.out]
  obtain ⟨fault, hleft, hright⟩ | ⟨written, written', hleft, hright, hout,
    hmachine⟩ :=
    (hput _ _ hbefore.machine before.out).cases
  · rw [hleft, hright]
    exact ⟨rfl, hbefore⟩
  · rw [hleft, hright]
    exact ⟨rfl, { hbefore with machine := hmachine, out := hout }⟩

theorem linked_write (hsteady : Machine.Steady M N) (text : String) :
    Related (Session.Linked M K) (write text) (write text) :=
  related_bind linked_check fun _ =>
    linked_writing (fun writer machine => writer.write machine text)
      fun _ _ hmachine writer => hsteady.write hmachine writer text

theorem linked_writeLine (hsteady : Machine.Steady M N) (line : String) :
    Related (Session.Linked M K) (writeLine line) (writeLine line) :=
  related_bind linked_check fun _ =>
    linked_writing (fun writer machine => writer.writeLine machine line)
      fun _ _ hmachine writer => hsteady.writeLine hmachine writer line

end Act

namespace Execution

open Act

variable {M : Machine → Machine → Prop} {N : Journal.Note → Journal.Note → Prop}
  {K : Place σ → Place τ → Prop} {owner : Owner σ} {owner' : Owner τ} {home : String}

theorem linked_resolve (howner : Owner.Linked K owner owner') (path : String) :
    Related (Session.Linked M K) (resolve home path) (resolve home path) := by
  intro before before' hbefore
  have hdirectory : before.directory = before'.directory :=
    howner.directory hbefore.place
  refine ⟨?_, hbefore⟩
  change Except.ok (Path.resolve path before.directory home) =
    Except.ok (Path.resolve path before'.directory home)
  rw [hdirectory]

theorem linked_stageInput (hsteady : Machine.Steady M N)
    (howner : Owner.Linked K owner owner') (bound : BoundCommand)
    {index index' : Nat} (hfirst : bound.redirections.stdin = none ∨
      (index = 0 ↔ index' = 0)) (current : Source) :
    Related (Session.Linked M K) (stageInput home bound index current)
      (stageInput home bound index' current) := by
  unfold stageInput
  cases hstdin : bound.redirections.stdin with
  | none => exact related_pure _
  | some path =>
      have hindex : index = 0 ↔ index' = 0 := by
        rcases hfirst with hnone | hindex
        · rw [hstdin] at hnone
          cases hnone
        · exact hindex
      by_cases hzero : index = 0
      · have hzero' := hindex.mp hzero
        simp only [hzero, hzero', ne_eq, not_true_eq_false, if_false]
        refine related_bind (linked_resolve howner path) fun resolved => ?_
        intro before before' hbefore
        rw [outcome_bind, outcome_bind, outcome_files, outcome_files,
          andThen, andThen, hsteady.isFile hbefore.machine]
        cases before'.machine.files.isFile resolved
        · exact ⟨rfl, hbefore⟩
        · exact ⟨rfl, hbefore⟩
      · have hzero' : ¬index' = 0 := fun h => hzero (hindex.mpr h)
        simp only [ne_eq, hzero, hzero', not_false_eq_true, if_true]
        exact related_bind (linked_note hsteady (hsteady.same _)) fun _ =>
          related_pure _

private theorem linked_openFile (hsteady : Machine.Steady M N)
    (howner : Owner.Linked K owner owner') (output : Output) :
    Related (Session.Linked M K) (openFile home output) (openFile home output) := by
  refine related_bind (linked_resolve howner output.path) fun resolved => ?_
  refine related_session_bind fun before before' hbefore => ?_
  obtain ⟨fault, hleft, hright⟩ |
    ⟨⟨machine, handle⟩, ⟨machine', handle'⟩, hleft, hright, hmachine, hhandle⟩ :=
    (hsteady.openOutput hbefore.machine resolved output.append).cases
  · rw [hleft, hright]
    cases fault <;> exact ⟨rfl, hbefore⟩
  · obtain rfl : handle = handle' := hhandle
    rw [hleft, hright]
    exact ⟨rfl, { hbefore with machine := hmachine }⟩

private theorem linked_stageOutput (hsteady : Machine.Steady M N)
    (howner : Owner.Linked K owner owner') (bound : BoundCommand) (isLast : Bool) :
    Related (Session.Linked M K) (stageOutput home bound isLast)
      (stageOutput home bound isLast) := by
  unfold stageOutput
  cases bound.redirections.stdout with
  | none => exact related_pure _
  | some output => exact linked_openFile hsteady howner output

private theorem linked_contextFor (howner : Owner.Linked K owner owner')
    (bound : BoundCommand) (input : Source) :
    Related (Session.Linked M K) (contextFor owner home bound input)
      (contextFor owner' home bound input) := by
  intro before before' hbefore
  have hdirectory : before.directory = before'.directory :=
    howner.directory hbefore.place
  have hprevious : before.previous = before'.previous :=
    howner.previous hbefore.place
  have hhistory : owner.history before.owner = owner'.history before'.owner :=
    howner.history hbefore.place
  refine ⟨?_, hbefore⟩
  change Except.ok (Context.mk input bound.arguments before.directory home
    before.previous
      (owner.history before.owner) true) =
    Except.ok (Context.mk input bound.arguments before'.directory home
      before'.previous (owner'.history before'.owner) true)
  rw [hdirectory, hprevious, hhistory]

private theorem linked_recover (hsteady : Machine.Steady M N) (bound : BoundCommand)
    (fault : Fault) :
    Related (Session.Linked M K) (recover bound fault) (recover bound fault) := by
  unfold recover
  split
  · exact related_throw _
  · exact related_throw _
  · exact related_bind (linked_note hsteady (hsteady.same _)) fun _ =>
      related_bind (linked_errorLine hsteady _) fun _ => related_pure _
  · exact related_bind (linked_note hsteady (hsteady.same _)) fun _ =>
      related_bind (linked_errorLine hsteady _) fun _ => related_pure _

private theorem linked_close (hsteady : Machine.Steady M N) (outlet : Outlet)
    {left : Session σ} {right : Session τ}
    (hlinked : Session.Linked M K left right) :
    Session.Linked M K (outlet.close left) (outlet.close right) := by
  cases outlet with
  | own | pipe => exact hlinked
  | file handle =>
      exact { hlinked with machine := hsteady.closeOutput hlinked.machine handle }

/-- What has gone wrong is not mended by what the executor does between commands. -/
structure Lasting (bad : Session σ → Prop) : Prop where
  note : ∀ note, Preserves bad (Act.note note)
  errorLine : ∀ line, Preserves bad (Act.errorLine line)
  withOutput : ∀ session writer, bad session → bad { session with out := writer }
  close : ∀ (outlet : Outlet) session, bad session → bad (outlet.close session)

private theorem lasting_never : Lasting fun _ : Session σ => False :=
  ⟨fun _ _ => id, fun _ _ => id, fun _ _ => id, fun _ _ => id⟩

/-- The notes about stages are linked if these are numbered from here and from
there. -/
structure Renumbered (N : Journal.Note → Journal.Note → Prop) (index index' : Nat) :
    Prop where
  running : ∀ shift bound,
    N (runningNote (index + shift) bound) (runningNote (index' + shift) bound)
  stopped : ∀ shift bound code,
    N (stoppedNote (index + shift) bound code)
      (stoppedNote (index' + shift) bound code)

private theorem Renumbered.next {index index' : Nat}
    (hnumbers : Renumbered N index index') :
    Renumbered N (index + 1) (index' + 1) where
  running shift bound := by
    rw [Nat.add_assoc, Nat.add_assoc]
    exact hnumbers.running (1 + shift) bound
  stopped shift bound code := by
    rw [Nat.add_assoc, Nat.add_assoc]
    exact hnumbers.stopped (1 + shift) bound code

section Unless

variable {bad : Session σ → Prop} {body : Body σ} {body' : Body τ}

private theorem Lasting.recover (hlasting : Lasting bad) (bound : BoundCommand)
    (fault : Fault) :
    Preserves bad (recover bound fault) := by
  have hreport (note : Journal.Note) (line : String) (code : ExitCode) :
      Preserves bad (do Act.note note; Act.errorLine line; return code) :=
    (hlasting.note note).bind fun _ => (hlasting.errorLine line).bind fun _ =>
      fun _ => id
  unfold Execution.recover
  split
  · exact fun _ => id
  · exact fun _ => id
  · exact hreport _ _ _
  · exact hreport _ _ _

private theorem unless_runCommand (hsteady : Machine.Steady M N)
    (howner : Owner.Linked K owner owner') (hlasting : Lasting bad)
    {bound : BoundCommand}
    (hbody : ∀ context, RelatedUnless bad (Session.Linked M K) (body bound context)
      (body' bound context)) (input : Source) :
    RelatedUnless bad (Session.Linked M K) (runCommand owner body home bound input)
      (runCommand owner' body' home bound input) := by
  refine (linked_contextFor howner bound input).bind_unless fun context => ?_
  refine RelatedUnless.tryCatch ?_ (linked_recover hsteady bound)
    (hlasting.recover bound)
  exact (hbody context).bind (fun status => (related_lift status.exitCode).unless)
    fun status => preserves_lift status.exitCode

private theorem unless_onStage (hlasting : Lasting bad) {α : Type} {left : Act σ α}
    {right : Act τ α} (hact : RelatedUnless bad (Session.Linked M K) left right)
    (outlet : Outlet) (current : Source) :
    RelatedUnless bad (Session.Linked M K) (onStage outlet current left)
      (onStage outlet current right) := by
  have hgiven (writer : Writer) : RelatedUnless bad (Session.Linked M K)
      (withOutput writer left) (withOutput writer right) := by
    intro before before' hbefore
    rw [outcome_withOutput, outcome_withOutput]
    rcases hact { before with out := writer } { before' with out := writer }
      { hbefore with out := rfl } with hwrong | ⟨hresult, hafter⟩
    · exact .inl (hlasting.withOutput _ _ hwrong)
    · rw [hresult, hafter.out]
      exact .inr ⟨rfl, { hafter with out := hbefore.out }⟩
  cases outlet with
  | own => exact hact.bind (fun _ => (related_pure _).unless) fun _ _ => id
  | pipe | file =>
      exact (hgiven _).bind (fun _ => (related_pure _).unless) fun _ _ => id

private theorem unless_afterwards (hsteady : Machine.Steady M N)
    (hlasting : Lasting bad) {α : Type} {left : Act σ α} {right : Act τ α}
    (outlet : Outlet) (hact : RelatedUnless bad (Session.Linked M K) left right) :
    RelatedUnless bad (Session.Linked M K) (afterwards outlet.close left)
      (afterwards outlet.close right) := by
  intro before before' hbefore
  rcases hact before before' hbefore with hwrong | ⟨hresult, hafter⟩
  · exact .inl (hlasting.close outlet _ hwrong)
  · exact .inr ⟨hresult, linked_close hsteady outlet hafter⟩

private theorem Lasting.proceed (hlasting : Lasting bad) (index : Nat)
    (bound : BoundCommand) {rest : Source → Act σ ExitCode}
    (hrest : ∀ next, Preserves bad (rest next)) (ended : ExitCode × Source) :
    Preserves bad (proceed index bound rest ended) := by
  obtain ⟨code, next⟩ := ended
  rw [Execution.proceed]
  split
  · exact (hlasting.note _).bind fun _ _ => id
  · exact hrest next

/-- The stages may be numbered differently, except that a first stage that reads a
file has to be the first on both sides. -/
theorem unless_runStages (hsteady : Machine.Steady M N)
    (howner : Owner.Linked K owner owner') (hlasting : Lasting bad)
    (hstages : ∀ index current rest,
      Preserves bad (runStages owner body home index current rest))
    {pipeline : BoundPipeline}
    (hbody : ∀ bound ∈ pipeline, ∀ context,
      RelatedUnless bad (Session.Linked M K) (body bound context)
        (body' bound context))
    {index index' : Nat} (hnumbers : Renumbered N index index')
    (hfirst : ∀ bound ∈ pipeline.head?,
      bound.redirections.stdin = none ∨ (index = 0 ↔ index' = 0))
    (current : Source) :
    RelatedUnless bad (Session.Linked M K)
      (runStages owner body home index current pipeline)
      (runStages owner' body' home index' current pipeline) := by
  induction pipeline generalizing index index' current with
  | nil => exact (related_pure _).unless
  | cons bound rest ih =>
      have hcommand := hbody bound List.mem_cons_self
      have hrest : ∀ next, RelatedUnless bad (Session.Linked M K)
          (runStages owner body home (index + 1) next rest)
          (runStages owner' body' home (index' + 1) next rest) :=
        -- The stages that follow are the first on neither side.
        ih (fun other member => hbody other (List.mem_cons_of_mem _ member))
          hnumbers.next fun _ _ => .inr ⟨nofun, nofun⟩
      have hreport (line : String) (code : ExitCode) :
          RelatedUnless bad (Session.Linked M K) (do errorLine line; return code)
            (do errorLine line; return code) :=
        (linked_errorLine hsteady line).bind_unless fun _ =>
          (related_pure code).unless
      refine linked_check.bind_unless fun _ => ?_
      refine (linked_stageInput hsteady howner bound (hfirst bound rfl)
        current).bind_unless fun found => ?_
      cases found with
      | error missing => exact hreport _ _
      | ok input =>
          refine (linked_stageOutput hsteady howner bound _).bind_unless
            fun opened => ?_
          cases opened with
          | error cause => exact hreport _ _
          | ok outlet =>
              refine unless_afterwards hsteady hlasting outlet ?_
              refine (linked_note hsteady
                (hnumbers.running 0 bound)).bind_unless fun _ => ?_
              refine (unless_onStage hlasting
                (unless_runCommand hsteady howner hlasting hcommand input) outlet
                  current).bind (fun ended => ?_)
                (hlasting.proceed index bound fun next => hstages _ next rest)
              obtain ⟨code, next⟩ := ended
              by_cases hcode : code ≠ .success
              · simp only [Execution.proceed, if_pos hcode]
                exact (linked_note hsteady
                  (hnumbers.stopped 0 bound code)).bind_unless fun _ =>
                    (related_pure _).unless
              · simp only [Execution.proceed, if_neg hcode]
                exact hrest next

end Unless

theorem linked_sameStages (hsteady : Machine.Steady M N)
    (howner : Owner.Linked K owner owner') {body : Body σ} {body' : Body τ}
    {pipeline : BoundPipeline}
    (hbody : ∀ bound ∈ pipeline, ∀ context,
      Related (Session.Linked M K) (body bound context) (body' bound context))
    (index : Nat) (current : Source) :
    Related (Session.Linked M K) (runStages owner body home index current pipeline)
      (runStages owner' body' home index current pipeline) :=
  (unless_runStages hsteady howner lasting_never (fun _ _ _ _ => id)
    (fun bound member context => (hbody bound member context).unless)
    ⟨fun _ _ => hsteady.same _, fun _ _ _ => hsteady.same _⟩
    (fun _ _ => .inr Iff.rfl) current).related

end Execution

section Beside

variable {α : Type}

def Session.plain (session : Session (σ × τ)) : Session σ :=
  { session with owner := session.owner.1 }

def Session.beside (session : Session σ) (other : τ) : Session (σ × τ) :=
  { session with owner := (session.owner, other) }

/-- The action does not see what stands beside the state of the owner. -/
def Act.beside (act : Act σ α) : Act (σ × τ) α :=
  ExceptT.mk do
    let session ← get
    let (result, after) := act.outcome session.plain
    set (after.beside session.owner.2)
    return result

def Owner.beside (owner : Owner σ) : Owner (σ × τ) where
  directoryChanged path state := (owner.directoryChanged path state.1, state.2)
  history state := owner.history state.1
  clearHistory := owner.clearHistory.map fun clear state => (clear state.1, state.2)
  deleteEntry := owner.deleteEntry.map fun delete position state =>
    ((delete position state.1).1, (delete position state.1).2, state.2)

def Alongside (place : Place (σ × τ)) (place' : Place σ) : Prop :=
  place' = ⟨place.directory, place.previous, place.owner.1⟩

theorem alongside_owner (owner : Owner σ) :
    Owner.Linked (Alongside (τ := τ)) owner.beside owner where
  directory hplace := by rw [hplace]
  previous hplace := by rw [hplace]
  history hplace := by rw [hplace]; rfl
  moved hplace path := by rw [hplace]; rfl
  clearing := by rw [Owner.beside, Option.isSome_map]
  cleared hleft hright hplace := by
    rw [Owner.beside, hright] at hleft
    cases hleft
    rw [hplace]
    rfl
  deleting := by rw [Owner.beside, Option.isSome_map]
  deleted hleft hright hplace position := by
    rw [Owner.beside, hright] at hleft
    cases hleft
    rw [hplace]
    exact ⟨rfl, rfl⟩

theorem linked_plain (session : Session (σ × τ)) :
    Session.Linked Eq Alongside session session.plain :=
  ⟨rfl, rfl, rfl, rfl, rfl, rfl, rfl⟩

theorem eq_plain_of_linked {session : Session (σ × τ)} {session' : Session σ}
    (hlinked : Session.Linked Eq Alongside session session') :
    session' = session.plain := by
  obtain ⟨hmachine, hplace, hcancelled, hout, herr, hregistry, hview⟩ := hlinked
  obtain ⟨machine, cancelled, out, err, directory, previous, registry, view,
    state⟩ := session'
  cases hplace
  cases hmachine
  cases hcancelled
  cases hout
  cases herr
  cases hregistry
  cases hview
  rfl

/-- Stages come to the same with or without something that is kept beside them. -/
theorem Execution.outcome_beside (owner : Owner σ) {body : Execution.Body σ}
    {keeping : Execution.Body (σ × τ)} {pipeline : BoundPipeline}
    (hbody : ∀ bound ∈ pipeline, ∀ context,
      Act.Related (Session.Linked Eq Alongside) (keeping bound context)
        (body bound context))
    (home : String) (index : Nat) (input : Source) (session : Session (σ × τ)) :
    Act.outcome (runStages owner body home index input pipeline) session.plain =
      let ended :=
        Act.outcome (runStages owner.beside keeping home index input pipeline)
          session
      (ended.1, ended.2.plain) := by
  have hstages : Act.Related (Session.Linked Eq Alongside)
      (runStages owner.beside keeping home index input pipeline)
      (runStages owner body home index input pipeline) :=
    linked_sameStages Machine.seen_eq.toSteady (alongside_owner owner) hbody
      index input
  obtain ⟨hresult, hafter⟩ := hstages session session.plain (linked_plain session)
  exact Prod.ext hresult.symm (eq_plain_of_linked hafter)

end Beside

end PipeShell
