import PipeShell.Proofs.JournalRecords
import PipeShell.Proofs.Lines
import PipeShell.Proofs.Scripts
import PipeShell.Proofs.StageFaults

namespace PipeShell

open Channel (Writer Cursor)

variable {σ α : Type}

namespace Channel.Writer

/-- Nothing has been added. What there was may have been taken back. -/
def Spared (before after : Writer) : Prop :=
  after = before ∨ before.clear = .ok after

theorem Spared.refl (writer : Writer) : writer.Spared writer := .inl rfl

private theorem clear_clear {writer cleared : Writer}
    (hclear : writer.clear = .ok cleared) :
    cleared.clear = .ok cleared := by
  cases writer <;> cases hclear <;> rfl

theorem Spared.trans {first second third : Writer} (hfirst : first.Spared second)
    (hsecond : second.Spared third) : first.Spared third := by
  rcases hfirst with rfl | hfirst
  · exact hsecond
  · rcases hsecond with rfl | hsecond
    · exact .inr hfirst
    · rw [clear_clear hfirst] at hsecond
      cases hsecond
      exact .inr hfirst

end Channel.Writer

/-- What closing does not change about a file. -/
def OutputFile.asClosed (output : OutputFile) : OutputFile :=
  { output with closed := true }

namespace Machine

/-- Since then the machine has only made notes, or forgotten them, and closed
files. -/
inductive Idles (before : Machine) : Machine → Prop
  | refl : Idles before before
  | note {after : Machine} (hidles : Idles before after) (note : Journal.Note) :
      Idles before (after.note note)
  | clearJournal {after : Machine} (hidles : Idles before after) :
  Idles before after.clearJournal
  | closeOutput {after : Machine} (hidles : Idles before after) (handle : Nat) :
      Idles before (after.closeOutput handle)

private theorem Idles.trans {first second third : Machine}
    (hfirst : first.Idles second) (hsecond : second.Idles third) :
    first.Idles third := by
  induction hsecond with
  | refl => exact hfirst
  | note _ note ih => exact ih.note note
  | clearJournal _ ih => exact ih.clearJournal
  | closeOutput _ handle ih => exact ih.closeOutput handle

theorem quiet_clearJournal (machine : Machine) :
    machine.Quiet machine.clearJournal := by
  unfold clearJournal
  refine ⟨?_, ?_, fun _ _ => rfl, rfl, fun _ => rfl⟩
  · rw [journalFile, journalFile]
    cases machine.journal <;> rfl
  · rw [journalConsole, journalConsole]
    cases machine.journal <;> rfl

theorem quiet_closeOutput (machine : Machine) (handle : Nat) :
    machine.Quiet (machine.closeOutput handle) := by
  unfold closeOutput
  split
  · exact .refl machine
  · exact ⟨rfl, rfl, fun _ _ => rfl, rfl, fun _ => rfl⟩

theorem Idles.quiet {before after : Machine} (hidles : before.Idles after) :
    before.Quiet after := by
  induction hidles with
  | refl => exact .refl before
  | note _ note ih => exact ih.trans (quiet_note _ note)
  | clearJournal _ ih => exact ih.trans (quiet_clearJournal _)
  | closeOutput _ handle ih => exact ih.trans (quiet_closeOutput _ handle)

private theorem length_outputs_closeOutput (machine : Machine) (handle : Nat) :
    (machine.closeOutput handle).outputs.length = machine.outputs.length := by
  unfold closeOutput
  split
  · rfl
  · exact List.length_set

theorem outputs_closeOutput (machine : Machine) (handle : Nat) :
    (machine.closeOutput handle).outputs.map OutputFile.asClosed =
      machine.outputs.map OutputFile.asClosed := by
  apply List.ext_getElem?
  intro index
  rw [List.getElem?_map, List.getElem?_map]
  cases hfile : machine.outputs[index]? with
  | some file =>
      obtain ⟨closed, hclosed⟩ := Execution.getElem?_closeOutput hfile handle
      rw [hclosed]
      rfl
  | none =>
      have hlength := List.getElem?_eq_none_iff.mp hfile
      rw [← length_outputs_closeOutput machine handle] at hlength
      rw [List.getElem?_eq_none hlength]

theorem Idles.outputs {before after : Machine} (hidles : before.Idles after) :
    after.outputs.map OutputFile.asClosed = before.outputs.map
      OutputFile.asClosed := by
  induction hidles with
  | refl => rfl
  | note _ note ih => rw [outputs_note, ih]
  | clearJournal _ ih => exact ih
  | closeOutput _ handle ih => rw [outputs_closeOutput, ih]

end Machine

/-- From a cancelled session on, nothing has been written to the machine or to the
error stream. -/
structure Session.Still (before after : Session σ) : Prop where
  cancelled : after.cancelled = true
  machine : before.machine.Idles after.machine
  err : before.err.Spared after.err

namespace Session.Still

variable {first second third : Session σ}

theorem refl (hcancelled : first.cancelled = true) : first.Still first :=
  ⟨hcancelled, .refl, .refl _⟩

theorem trans (hfirst : first.Still second) (hsecond : second.Still third) :
    first.Still third :=
  ⟨hsecond.cancelled, hfirst.machine.trans hsecond.machine,
    hfirst.err.trans hsecond.err⟩

end Session.Still

theorem Wrote.length_outputs {writer writer' : Writer} {machine machine' : Machine}
    (hwrote : Wrote writer machine writer' machine') :
    machine'.outputs.length = machine.outputs.length := by
  rw [← List.length_map OutputFile.lasting, hwrote.outputs, List.length_map]

namespace Act

variable {session : Session σ}

private theorem outcome_check_of_cancelled (hcancelled : session.cancelled = true) :
    outcome check session = (.error .cancellation, session) := by
  rw [outcome_check, if_pos hcancelled]

theorem outcome_check_bind (hcancelled : session.cancelled = true)
    (next : Unit → Act σ α) :
    outcome (check >>= next) session = (.error .cancellation, session) := by
  rw [outcome_bind, outcome_check_of_cancelled hcancelled]
  rfl

private theorem outcome_lift_bind {result : Session σ → Except Fault α} :
    outcome (Act.session >>= fun session => lift (result session)) session =
      (result session, session) := by
  rw [outcome_bind]
  exact outcome_lift _ _

theorem outcome_writing (put : Session σ → Except Fault (Writer × Machine))
    (store : Session σ → Writer → Machine → Session σ) (session : Session σ) :
    outcome (check >>= fun _ => Act.session >>= fun session =>
      lift (put session) >>= fun written =>
        set (store session written.1 written.2)) session =
      if session.cancelled then (.error .cancellation, session)
      else match put session with
        | .ok (writer, machine) => (.ok (), store session writer machine)
        | .error fault => (.error fault, session) := by
  cases hcancelled : session.cancelled with
  | true => exact outcome_check_bind hcancelled _
  | false =>
      rw [outcome_bind, outcome_check_of_live hcancelled]
      change outcome (lift (put session) >>= fun written =>
        set (store session written.1 written.2))
        session = _
      rw [outcome_bind, outcome_lift]
      cases put session <;> rfl

theorem outcome_clearOutput (session : Session σ) :
    outcome clearOutput session =
      match session.out.clear with
      | .ok out => (.ok (), { session with out })
      | .error fault => (.error fault, session) := by
  change outcome (lift session.out.clear >>= fun out => set { session with out })
    session = _
  rw [outcome_bind, outcome_lift]
  cases session.out.clear <;> rfl

private theorem outcome_clearErrors (session : Session σ) :
    outcome clearErrors session =
      match session.err.clear with
      | .ok err => (.ok (), { session with err })
      | .error fault => (.error fault, session) := by
  change outcome (lift session.err.clear >>= fun err => set { session with err })
    session = _
  rw [outcome_bind, outcome_lift]
  cases session.err.clear <;> rfl

private theorem outcome_unregister (name : String) (session : Session σ) :
    outcome (unregister name) session =
      match session.view with
      | .absent =>
          (.error (.absentMember "'NoneType' object has no attribute 'unregister'"),
            session)
      | .shared =>
          (.ok (session.registry.unregister name).1,
            { session with registry := (session.registry.unregister name).2 })
      | .apart registry =>
          (.ok (registry.unregister name).1,
            { session with view := .apart (registry.unregister name).2 }) := by
  unfold unregister
  rw [outcome_bind]
  change outcome (match session.view with
    | .absent => _
    | .shared => _
    | .apart registry => _) session = _
  cases session.view <;> rfl

end Act

namespace Request

/-- What a request comes to. It never opens a file for writing, and from a cancelled
session on it writes nothing and opens nothing at all. -/
structure Effect (request : Request) (session : Session σ)
    (ended : Except Fault (request.Answer σ) × Session σ) : Prop where
  count : ended.2.machine.outputs.length = session.machine.outputs.length
  still : session.cancelled = true → session.Still ended.2
  out : session.cancelled = true → session.out.Spared ended.2.out
  opens : session.cancelled = true → request.opens ended.1 = false

variable {request : Request} {session : Session σ}

theorem Effect.of_eq {ended ended' : Except Fault (request.Answer σ) × Session σ}
    (hended : ended = ended') (heffect : request.Effect session ended') :
    request.Effect session ended :=
  hended ▸ heffect

theorem effect_unchanged {result : Except Fault (request.Answer σ)}
    (hopens : session.cancelled = true → request.opens result = false) :
    request.Effect session (result, session) :=
  ⟨rfl, .refl, fun _ => .refl _, hopens⟩

private theorem effect_aside {result : Except Fault (request.Answer σ)}
    {after : Session σ} (hcancelled : session.cancelled = true →
      after.cancelled = true)
    (hmachine : after.machine = session.machine)
    (hout : session.out.Spared after.out) (herr : session.err.Spared after.err)
    (hopens : request.opens result = false) :
    request.Effect session (result, after) where
  count := by rw [hmachine]
  still hbefore := ⟨hcancelled hbefore, hmachine ▸ .refl, herr⟩
  out _ := hout
  opens _ := hopens

private theorem effect_writing {ended : Except Fault (request.Answer σ) × Session σ}
    {written : Except Fault (Writer × Machine)}
    {store : Writer → Machine → Session σ} (done : request.Answer σ)
    (hended : ended =
      if session.cancelled then (.error .cancellation, session)
      else match written with
        | .ok (writer, machine) => (.ok done, store writer machine)
        | .error fault => (.error fault, session))
    (hstore : ∀ writer machine, (store writer machine).machine = machine)
    (hwritten : ∀ writer machine, written = .ok (writer, machine) →
      machine.outputs.length = session.machine.outputs.length)
    (hopens : ∀ result, request.opens (σ := σ) result = false) :
    request.Effect session ended := by
  refine .of_eq hended ?_
  cases hcancelled : session.cancelled with
  | true => exact effect_unchanged fun _ => hopens _
  | false =>
      have hlive {P : Prop} (h : session.cancelled = true) : P := by
        rw [hcancelled] at h
        cases h
      cases hresult : written with
      | error fault => exact effect_unchanged hlive
      | ok result =>
          refine ⟨?_, hlive, hlive, hlive⟩
          exact (congrArg (·.outputs.length) (hstore _ _)).trans
            (hwritten _ _ hresult)

private theorem opens_next (cursor : Cursor) (files : FileTree) :
    (Request.next cursor).opens (σ := σ) (cursor.next true files) = false := by
  cases cursor <;> rfl

theorem effect (owner : Owner σ) (request : Request) (session : Session σ) :
    request.Effect session (Act.outcome (request.act owner) session) := by
  have hsame : session.out.Spared session.out ∧ session.err.Spared session.err :=
    ⟨.refl _, .refl _⟩
  cases request with
  | look => exact effect_unchanged fun _ => rfl
  | check => exact .of_eq (Act.outcome_check session) (effect_unchanged fun _ => rfl)
  | cancel => exact effect_aside (fun _ => rfl) rfl hsame.1 hsame.2 rfl
  | write text =>
      exact effect_writing () (Act.outcome_writing _ (fun session out machine =>
        { session with out, machine }) session) (fun _ _ => rfl)
        (fun _ _ hwritten => (Writer.wrote_of_write hwritten).length_outputs)
          fun _ => rfl
  | writeLine line =>
      exact effect_writing () (Act.outcome_writing _ (fun session out machine =>
        { session with out, machine }) session) (fun _ _ => rfl)
        (fun _ _ hwritten => (Writer.wrote_of_writeLine hwritten).length_outputs)
          fun _ => rfl
  | errorText text =>
      exact effect_writing () (Act.outcome_writing _ (fun session err machine =>
        { session with err, machine }) session) (fun _ _ => rfl)
        (fun _ _ hwritten => (Writer.wrote_of_write hwritten).length_outputs)
          fun _ => rfl
  | errorLine line =>
      exact effect_writing () (Act.outcome_writing _ (fun session err machine =>
        { session with err, machine }) session) (fun _ _ => rfl)
        (fun _ _ hwritten => (Writer.wrote_of_writeLine hwritten).length_outputs)
          fun _ => rfl
  | clearOutput =>
      refine .of_eq (Act.outcome_clearOutput session) ?_
      cases hclear : session.out.clear with
      | error fault => exact effect_unchanged fun _ => rfl
      | ok out => exact effect_aside (fun h => h) rfl (.inr hclear) hsame.2 rfl
  | clearErrors =>
      refine .of_eq (Act.outcome_clearErrors session) ?_
      cases hclear : session.err.clear with
      | error fault => exact effect_unchanged fun _ => rfl
      | ok err => exact effect_aside (fun h => h) rfl hsame.1 (.inr hclear) rfl
  | start source =>
      exact .of_eq Act.outcome_lift_bind (effect_unchanged fun _ => rfl)
  | next cursor =>
      -- A file that has not been opened yet is not opened any more.
      refine .of_eq Act.outcome_lift_bind (effect_unchanged fun hcancelled => ?_)
      rw [hcancelled]
      exact opens_next cursor _
  | changeDirectory path => exact effect_aside (fun h => h) rfl hsame.1 hsame.2 rfl
  | clearHistory =>
      unfold act Act.clearHistory
      cases owner.clearHistory with
      | none => exact effect_unchanged fun _ => rfl
      | some clear => exact effect_aside (fun h => h) rfl hsame.1 hsame.2 rfl
  | deleteEntry position =>
      unfold act Act.deleteEntry
      cases owner.deleteEntry with
      | none => exact effect_unchanged fun _ => rfl
      | some delete => exact effect_aside (fun h => h) rfl hsame.1 hsame.2 rfl
  | unregister name =>
      refine .of_eq (Act.outcome_unregister name session) ?_
      cases session.view with
      | absent => exact effect_unchanged fun _ => rfl
      | shared => exact effect_aside (fun h => h) rfl hsame.1 hsame.2 rfl
      | apart registry => exact effect_aside (fun h => h) rfl hsame.1 hsame.2 rfl
  | note record =>
      exact ⟨congrArg List.length (Machine.outputs_note _ _),
        fun hcancelled => ⟨hcancelled, .note .refl record, .refl _⟩, fun _ =>
          .refl _, fun _ => rfl⟩
  | clearJournal =>
      exact ⟨rfl, fun hcancelled => ⟨hcancelled, .clearJournal .refl, .refl _⟩,
        fun _ => .refl _, fun _ => rfl⟩

end Request

end PipeShell
