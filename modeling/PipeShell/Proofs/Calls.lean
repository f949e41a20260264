import PipeShell.Proofs.LinkedSessions

namespace PipeShell

open Channel (Source Writer)

variable {σ : Type}

/-- A command as it is started: what it is told, and where. -/
structure Call (σ : Type) where
  bound : BoundCommand
  context : Context
  session : Session σ

namespace Call

def ended (body : Execution.Body σ) (call : Call σ) :
    Except Fault Status × Session σ :=
  Act.outcome (body call.bound call.context) call.session

/-- The command does the same in any other session that is linked to its own. -/
def Blind (M : Machine → Machine → Prop) (body : Execution.Body σ) (call : Call σ) :
    Prop :=
  ∀ other, Session.Linked M Eq call.session other →
    let ended := Act.outcome (body call.bound call.context) other
    (call.ended body).1 = ended.1 ∧ Session.Linked M Eq (call.ended body).2 ended.2

end Call

namespace Execution

open Act

/-- The commands as they are, with a record of their calls. -/
def called (body : Body σ) : Body (σ × List (Call σ)) :=
  fun bound context => do
    modify fun session =>
      session.plain.beside (session.owner.2 ++ [⟨bound, context, session.plain⟩])
    (body bound context).beside

/-- The calls that stages make, from number `index` on. -/
def callsFrom (owner : Owner σ) (body : Body σ) (home : String) (index : Nat)
    (input : Source) (pipeline : BoundPipeline) (session : Session σ) :
    List (Call σ) :=
  (outcome (runStages owner.beside (called body) home index input pipeline)
    (session.beside [])).2.owner.2

variable {owner : Owner σ} {body : Body σ} {home : String} {bound : BoundCommand}
  {context : Context}

theorem outcome_called (session : Session (σ × List (Call σ))) :
    outcome (called body bound context) session =
      ((outcome (body bound context) session.plain).1,
        (outcome (body bound context) session.plain).2.beside
          (session.owner.2 ++ [⟨bound, context, session.plain⟩])) :=
  rfl

theorem linked_called (body : Body σ) (bound : BoundCommand) (context : Context) :
    Related (Session.Linked Eq Alongside) (called body bound context)
      (body bound context) := by
  intro before before' hbefore
  rw [eq_plain_of_linked hbefore, outcome_called]
  exact ⟨rfl, linked_plain _⟩

/-! Calls that have been recorded stay recorded. -/

private def Holding (calls : List (Call σ))
    (place place' : Place (σ × List (Call σ))) : Prop :=
  place = place' ∧ calls ⊆ place.owner.2

private theorem holding_owner (owner : Owner σ) (calls : List (Call σ)) :
    Owner.Linked (Holding calls) owner.beside owner.beside where
  directory hplace := by rw [hplace.1]
  previous hplace := by rw [hplace.1]
  history hplace := by rw [hplace.1]
  moved hplace path := by
    obtain ⟨rfl, hcalls⟩ := hplace
    exact ⟨rfl, hcalls⟩
  clearing := rfl
  cleared hleft hright hplace := by
    obtain ⟨rfl, hcalls⟩ := hplace
    cases hleft.symm.trans hright
    obtain ⟨clear, -, rfl⟩ := Option.map_eq_some_iff.mp hleft
    exact ⟨rfl, hcalls⟩
  deleting := rfl
  deleted hleft hright hplace position := by
    obtain ⟨rfl, hcalls⟩ := hplace
    cases hleft.symm.trans hright
    obtain ⟨delete, -, rfl⟩ := Option.map_eq_some_iff.mp hleft
    exact ⟨rfl, rfl, hcalls⟩

private theorem holding_refl {calls : List (Call σ)}
    {session : Session (σ × List (Call σ))} (hcalls : calls ⊆ session.owner.2) :
    Session.Linked Eq (Holding calls) session session :=
  ⟨rfl, ⟨rfl, hcalls⟩, rfl, rfl, rfl, rfl, rfl⟩

private theorem holding_called (body : Body σ) (bound : BoundCommand)
    (context : Context) (calls : List (Call σ)) :
    Related (Session.Linked Eq (Holding calls)) (called body bound context)
      (called body bound context) := by
  rintro before ⟨machine, cancelled, out, err, directory, previous, registry,
    view, state⟩
    ⟨rfl, ⟨hplace, hcalls⟩, rfl, rfl, rfl, rfl, rfl⟩
  cases hplace
  refine ⟨rfl, holding_refl ?_⟩
  exact fun call member => List.mem_append_left _ (hcalls member)

def Astray (P : Call σ → Prop) (session : Session (σ × List (Call σ))) : Prop :=
  ∃ call ∈ session.owner.2, ¬ P call

variable {P : Call σ → Prop}

private theorem lasting_astray : Lasting (Astray P) where
  note _ _ hwrong := hwrong
  errorLine line before hwrong := by
    rw [errorLine, outcome_bind, outcome_check]
    split
    · exact hwrong
    · rw [andThen, outcome_reportLine]
      cases before.err.writeLine before.machine line <;> exact hwrong
  withOutput _ _ hwrong := hwrong
  close outlet _ hwrong := by cases outlet <;> exact hwrong

private theorem preserves_runStages (owner : Owner σ) (body : Body σ) (home : String)
    (index : Nat) (current : Source) (pipeline : BoundPipeline) :
    Preserves (Astray P)
      (runStages owner.beside (called body) home index current pipeline) := by
  rintro before ⟨call, member, hwrong⟩
  let act := runStages owner.beside (called body) home index current pipeline
  have hstages : Related (Session.Linked Eq (Holding before.owner.2)) act act :=
    linked_sameStages Machine.seen_eq.toSteady (holding_owner owner before.owner.2)
      (fun bound _ context => holding_called body bound context _) index current
  have hafter := (hstages before before (holding_refl (List.Subset.refl _))).2
  exact ⟨call, hafter.place.2 member, hwrong⟩

section Blind

variable {M : Machine → Machine → Prop} {N : Journal.Note → Journal.Note → Prop}

private theorem unless_called (body : Body σ) (bound : BoundCommand)
    (context : Context) :
    RelatedUnless (Astray (Call.Blind M body)) (Session.Linked M Alongside)
      (called body bound context) (body bound context) := by
  intro before before' hbefore
  rw [outcome_called]
  by_cases hblind : Call.Blind M body ⟨bound, context, before.plain⟩
  · right
    have hplain : Session.Linked M Eq before.plain before' :=
      { hbefore with place := hbefore.place.symm }
    obtain ⟨hresult, hafter⟩ := hblind before' hplain
    exact ⟨hresult, { hafter with place := hafter.place.symm }⟩
  · left
    exact ⟨_, List.mem_append_right _ List.mem_cons_self, hblind⟩

/-- Stages whose calls see no difference between linked sessions keep them linked,
also if they are numbered differently. -/
theorem linked_of_calls (hsteady : Machine.Steady M N) {pipeline : BoundPipeline}
    (index index' : Nat) (hnumbers : Renumbered N index index')
    (hfirst : ∀ bound ∈ pipeline.head?,
      bound.redirections.stdin = none ∨ (index = 0 ↔ index' = 0))
    {current : Source} {before before' : Session σ}
    (hbefore : Session.Linked M Eq before before')
    (hcalls : ∀ call ∈ callsFrom owner body home index current pipeline before,
      call.Blind M body) :
    let ended := outcome (runStages owner body home index current pipeline) before
    let ended' := outcome (runStages owner body home index' current pipeline) before'
    ended.1 = ended'.1 ∧ Session.Linked M Eq ended.2 ended'.2 := by
  have hstages := unless_runStages hsteady (alongside_owner owner) lasting_astray
    (preserves_runStages owner body home) (fun bound _ => unless_called body bound)
    hnumbers hfirst current
  have hstart : Session.Linked M Alongside (before.beside ([] : List (Call σ)))
      before' :=
    { hbefore with place := hbefore.place.symm }
  rcases hstages _ _ hstart with ⟨call, member, hwrong⟩ | ⟨hresult, hafter⟩
  · exact absurd (hcalls call member) hwrong
  · have hbody : ∀ bound ∈ pipeline, ∀ context, Related (Session.Linked Eq Alongside)
        (called body bound context) (body bound context) := fun bound _ =>
      linked_called body bound
    have hended := outcome_beside owner hbody home index current (before.beside [])
    change outcome _ before = _ at hended
    rw [hended]
    exact ⟨hresult, { hafter with place := hafter.place.symm }⟩

end Blind

end Execution

end PipeShell
