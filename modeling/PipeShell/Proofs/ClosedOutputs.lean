import PipeShell.Proofs.Effects

namespace PipeShell

open Channel (Source Writer)

variable {σ α : Type} {owner : Owner σ}

def Session.Counts (count : Nat) (session : Session σ) : Prop :=
  session.machine.outputs.length = count

/-- The files that have been opened from a certain one on are closed. -/
def Session.ClosedFrom (count : Nat) (session : Session σ) : Prop :=
  ∀ handle file, count ≤ handle → session.machine.outputs[handle]? = some file →
    file.closed = true

namespace Session

variable {count : Nat} {session : Session σ}

theorem Counts.closedFrom (hcounts : Counts count session) :
    ClosedFrom count session := by
  intro handle file hhandle hfile
  have hlength := (List.getElem?_eq_some_iff.mp hfile).1
  rw [hcounts] at hlength
  omega

private theorem ClosedFrom.close (hclosed : ClosedFrom (count + 1) session) :
    ClosedFrom count { session with
      machine := session.machine.closeOutput count } := by
  intro handle file hhandle hfile
  change (session.machine.closeOutput count).outputs[handle]? = some file at hfile
  unfold Machine.closeOutput at hfile
  split at hfile
  · next hnone =>
      refine hclosed handle file ?_ hfile
      rcases Nat.lt_or_eq_of_le hhandle with hless | rfl
      · exact hless
      · rw [hnone] at hfile
        cases hfile
  · rw [Machine.setOutput, List.getElem?_set] at hfile
    split at hfile
    · split at hfile
      · cases hfile
        rfl
      · cases hfile
    · exact hclosed handle file (by omega) hfile

end Session

namespace Act

open Session

variable {count : Nat}

theorem Ensures.after {pre last : Session σ → Prop} {act : Act σ α}
    (hact : Ensures pre act (fun _ => last) fun _ => last) {before : Session σ}
    (hbefore : pre before) : last (outcome act before).2 := by
  have hended := hact.ended before hbefore
  generalize outcome act before = ended at hended
  rcases ended with ⟨fault | value, after⟩
  · exact hended
  · exact hended

private theorem keeps_counts_script (script : Script σ α) :
    Keeps (Counts count) Execution.anyhow (script.run owner) := by
  induction script with
  | done value => exact keeps_pure value
  | fail fault => exact ensures_throw fun _ hbefore => ⟨hbefore, trivial⟩
  | ask request next ih =>
      refine Keeps.bind ⟨fun before hbefore => ?_⟩ ih
      exact (request.effect owner before).count.trans hbefore

end Act

namespace Execution

open Act Session

variable {count : Nat} {home : String} {body : Body σ} {bound : BoundCommand}

theorem unreported_counts : Unreported (Counts (σ := σ) count) where
  noted session note hcounts :=
    (congrArg List.length (Machine.outputs_note session.machine note)).trans hcounts
  errors _ _ _ hcounts hwrote := hwrote.length_outputs.trans hcounts

private theorem keeps_counts_command
    (hbody : ∀ context, Heeds owner (body bound context)) (input : Source) :
    Keeps (Counts count) anyhow (runCommand owner body home bound input) := by
  have hscript (context : Context) : Keeps (Counts count) anyhow
      (body bound context >>= fun status => lift status.exitCode) := by
    obtain ⟨script, hscript⟩ := hbody context
    rw [hscript]
    refine (keeps_counts_script script).bind fun status => ?_
    exact ensures_lift (fun _ _ _ hbefore => hbefore) fun _ _ _ hbefore =>
      ⟨hbefore, trivial⟩
  refine ensures_session_bind fun before hbefore => ?_
  refine ensures_tryCatch ((hscript _).startingIn hbefore) fun fault => ?_
  exact Ensures.imp_pre (keeps_recover unreported_counts bound fault) fun _ hafter =>
    hafter.1

private theorem keeps_counts_onStage {act : Act σ α}
    (hact : Keeps (Counts count) anyhow act) (outlet : Outlet) (current : Source) :
    Keeps (Counts count) anyhow (onStage outlet current act) := by
  have hgiven (writer : Writer) :
      Keeps (Counts count) anyhow (withOutput writer act) :=
    ensures_each fun before hbefore =>
      have hstart : Counts count { before with out := writer } := hbefore
      ensures_withOutput (Ensures.startingIn hact hstart) (fun _ _ hafter => hafter)
        fun _ _ hafter => hafter
  cases outlet with
  | own => exact hact.bind fun _ => keeps_pure _
  | pipe => exact (hgiven _).bind fun _ => keeps_pure _
  | file handle => exact (hgiven _).bind fun _ => keeps_pure _

theorem keeps_stageInputOf {inv : Session σ → Prop} (hinv : Unreported inv)
    (index : Nat) (current : Source) :
    Keeps inv anyhow (stageInput home bound index current) := by
  unfold stageInput
  cases bound.redirections.stdin with
  | none => exact keeps_pure _
  | some path =>
      by_cases hindex : index ≠ 0
      · simp only [if_pos hindex]
        exact (keeps_noteOf hinv _).bind fun _ => keeps_pure _
      · simp only [if_neg hindex]
        refine Keeps.bind ⟨fun _ hbefore => hbefore⟩ fun resolved =>
          keeps_files.bind fun tree => ?_
        split
        · exact keeps_pure _
        · exact keeps_pure _

/-- How many files have been opened for an outlet: at most one. -/
def Outlet.opened : Outlet → Nat
  | .file _ => 1
  | _ => 0

def Outlet.Opens (count : Nat) (outlet : Outlet) : Prop :=
  ∀ handle, outlet = .file handle → handle = count

private theorem openOutput_counts {machine machine' : Machine} {path : String}
    {append : Bool} {handle : Nat}
    (hopen : machine.openOutput path append = .ok (machine', handle)) :
    handle = machine.outputs.length ∧
      machine'.outputs.length = machine.outputs.length + 1 := by
  unfold Machine.openOutput at hopen
  split at hopen
  · cases hopen
  · split at hopen
    · cases hopen
    · cases hopen
      exact ⟨rfl, List.length_append⟩

private theorem ensures_counts_stageOutput (bound : BoundCommand) (isLast : Bool) :
    Ensures (Counts (σ := σ) count) (stageOutput home bound isLast)
      (fun found after => match found with
        | .ok outlet => outlet.Opens count ∧ Counts (count + outlet.opened) after
        | .error _ => Counts count after)
      fun _ => ClosedFrom count := by
  unfold stageOutput
  cases bound.redirections.stdout with
  | none =>
      refine ensures_pure fun _ hbefore => ?_
      cases isLast <;> exact ⟨nofun, hbefore⟩
  | some output =>
      have hresolve : Ensures (Counts (σ := σ) count) (resolve home output.path)
          (fun _ => Counts count) fun _ => ClosedFrom count :=
            ⟨fun _ hbefore => hbefore⟩
      refine hresolve.bind fun resolved =>
        ensures_session_bind fun before hbefore => ?_
      cases hopen : before.machine.openOutput resolved output.append with
      | ok opened =>
          obtain ⟨machine, handle⟩ := opened
          obtain ⟨hhandle, hlength⟩ := openOutput_counts hopen
          constructor
          rintro _ rfl
          refine ⟨?_, hlength.trans (congrArg (· + 1) hbefore)⟩
          rintro _ ⟨⟩
          exact hhandle.trans hbefore
      | error fault =>
          cases fault with
          | failure cause =>
              refine ensures_pure ?_
              rintro _ rfl
              exact hbefore
          | _ =>
              refine ensures_throw ?_
              rintro _ rfl
              exact hbefore.closedFrom

private theorem closedFrom_close {outlet : Outlet} (hopens : outlet.Opens count)
    {session : Session σ} (hclosed : ClosedFrom (count + outlet.opened) session) :
    ClosedFrom count (outlet.close session) := by
  cases outlet with
  | own | pipe => exact hclosed
  | file handle =>
      obtain rfl := hopens handle rfl
      exact hclosed.close

private theorem ensures_closed {pipeline : BoundPipeline}
    (hbody : ∀ bound ∈ pipeline, ∀ context, Heeds owner (body bound context))
    (index : Nat) (current : Source) :
    Ensures (Counts count) (runStages owner body home index current pipeline)
      (fun _ => ClosedFrom count) fun _ => ClosedFrom count := by
  -- A stage runs the rest of the pipeline before it closes its own file, so the
  -- count grows on the way.
  induction pipeline generalizing index current count with
  | nil => exact ensures_pure fun _ hbefore => hbefore.closedFrom
  | cons bound rest ih =>
      obtain ⟨hcommand, hrest⟩ := List.forall_mem_cons.mp hbody
      have hkeeps {γ : Type} {count : Nat} {act : Act σ γ}
          (hact : Keeps (Counts count) anyhow act) :
            Ensures (Counts count) act (fun _ => Counts count) fun _ =>
              ClosedFrom count :=
        hact.imp_faulty fun _ _ hafter => hafter.1.closedFrom
      have hend {count : Nat} (code : ExitCode) :
          Ensures (Counts (σ := σ) count) (pure code)
            (fun _ => ClosedFrom count) fun _ => ClosedFrom count :=
        ensures_pure fun _ hbefore => hbefore.closedFrom
      rw [runStages]
      refine (hkeeps (keeps_check fun _ _ _ => trivial)).bind fun _ => ?_
      refine (hkeeps (keeps_stageInputOf unreported_counts index current)).bind
        fun found => ?_
      cases found with
      | error missing =>
          exact (hkeeps (keeps_errorOf unreported_counts _)).bind fun _ => hend _
      | ok input =>
          refine (ensures_counts_stageOutput bound rest.isEmpty).bind fun found => ?_
          cases found with
          | error cause =>
              exact (hkeeps (keeps_errorOf unreported_counts _)).bind fun _ => hend _
          | ok outlet =>
              refine ensures_each fun before hstart => Ensures.startingIn ?_ hstart.2
              have hopens := hstart.1
              refine ensures_afterwards ?_ (fun _ _ => closedFrom_close hopens)
                fun _ _ => closedFrom_close hopens
              refine (hkeeps (keeps_noteOf unreported_counts _)).bind fun _ => ?_
              refine (hkeeps (keeps_counts_onStage
                (keeps_counts_command hcommand input) outlet current)).bind
                  fun ended => ?_
              obtain ⟨code, next⟩ := ended
              rw [proceed]
              split
              · exact (hkeeps (keeps_noteOf unreported_counts _)).bind fun _ =>
                  hend code
              · exact ih hrest (index + 1) next

theorem closedFrom_execute {pipeline : BoundPipeline}
    (hbody : ∀ bound ∈ pipeline, ∀ context, Heeds owner (body bound context))
    (home : String) (input : Source) (session : Session σ) :
    ClosedFrom session.machine.outputs.length
      (outcome (execute owner body home input pipeline) session).2 :=
  (ensures_closed hbody 0 input).after rfl

end Execution

end PipeShell
