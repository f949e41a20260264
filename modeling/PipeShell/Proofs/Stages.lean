import PipeShell.Execution
import PipeShell.Proofs.Action

namespace PipeShell.Execution

open Act
open Channel (Source Writer)

variable {σ : Type} {owner : Owner σ} {body : Body σ} {home : String}

private theorem keepsOutput_stageInput (bound : BoundCommand) (index : Nat)
    (current : Source) :
    KeepsOutput (stageInput home bound index current : Act σ
      (Except String Source)) := by
  unfold stageInput
  cases bound.redirections.stdin with
  | none => exact keepsOutput_pure _
  | some path =>
      by_cases hindex : index ≠ 0
      · simp only [if_pos hindex]
        exact (keepsOutput_note _).bind fun _ => keepsOutput_pure _
      · simp only [if_neg hindex]
        have hresolve : KeepsOutput (resolve home path : Act σ String) :=
          fun _ => rfl
        have hfiles : KeepsOutput (files : Act σ FileTree) := fun _ => rfl
        refine hresolve.bind fun resolved => hfiles.bind fun tree => ?_
        cases tree.isFile resolved
        · exact keepsOutput_pure _
        · exact keepsOutput_pure _

private theorem keepsOutput_onStage_pipe {α : Type} (current : Source)
    (act : Act σ α) :
    KeepsOutput (onStage .pipe current act) :=
  (keepsOutput_withOutput _ act).bind fun _ => keepsOutput_pure _

theorem runStages_cons {bound : BoundCommand}
    (hstdout : bound.redirections.stdout = none) (index : Nat) (current : Source)
    (rest : BoundPipeline) :
    runStages owner body home index current (bound :: rest) =
      check >>= fun _ => stageInput home bound index current >>= fun found =>
        match found with
        | .error missing =>
            errorLine ("File not found: " ++ missing) >>= fun _ => pure .runtimeError
        | .ok input =>
            note (runningNote index bound) >>= fun _ =>
              onStage (if rest.isEmpty then .own else .pipe) current
                  (runCommand owner body home bound input) >>=
                proceed index bound (runStages owner body home (index + 1)
                  · rest) := by
  rw [runStages]
  refine bind_congr fun _ => bind_congr fun found => ?_
  cases found with
  | error missing => rfl
  | ok input =>
      rw [stageOutput, hstdout]
      cases rest.isEmpty <;> rfl

/-- What follows a part of a pipeline that wrote to a buffer. -/
def resume (rest : Source → Act σ ExitCode) : ExitCode × Writer → Act σ ExitCode
  | (code, written) =>
      if code ≠ .success then pure code else rest (handedOver written)

theorem withOutput_proceed_bind {code : ExitCode} (hcode : code ≠ .success)
    (writer : Writer) (index : Nat) (bound : BoundCommand) (source : Source)
    (rest after : Source → Act σ ExitCode) :
    withOutput writer (proceed index bound rest (code, source)) >>= resume after =
      note (stoppedNote index bound code) >>= fun _ => pure code := by
  rw [proceed, if_pos hcode, (keepsOutput_note _).withOutput_bind, bind_assoc]
  refine bind_congr fun _ => ?_
  rw [withOutput_pure, pure_bind, resume, if_pos hcode]

/-- The last stage before a cut writes to the buffer, whether the cut is there or
not. -/
theorem onStage_pipe_bind (bound : BoundCommand) (index : Nat) (current : Source)
    (act : Act σ ExitCode) (rest : Source → Act σ ExitCode) :
    onStage .pipe current act >>= proceed index bound rest =
      withOutput (.lines .empty)
          (onStage .own current act >>= proceed index bound fun _ =>
            pure .success) >>=
        resume rest := by
  have hown : onStage .own current act >>=
      proceed index bound (fun _ => pure .success) =
        act >>= fun code => proceed index bound (fun _ => pure .success)
          (code, current) := by
    simp only [onStage, bind_assoc, pure_bind]
  rw [hown, withOutput_bind, bind_assoc, onStage, bind_assoc]
  refine bind_congr fun (code, written) => ?_
  rw [pure_bind]
  by_cases hcode : code = .success
  · subst hcode
    rfl
  · rw [withOutput_proceed_bind hcode]
    exact if_pos hcode

theorem runStages_append {first second : BoundPipeline} (hfirst : first ≠ [])
    (hsecond : second ≠ []) (hstdout : ∀ bound ∈ first,
      bound.redirections.stdout = none)
    (index : Nat) (input : Source) :
    runStages owner body home index input (first ++ second) =
      withOutput (.lines .empty) (runStages owner body home index input first) >>=
        resume (runStages owner body home (index + first.length) · second) := by
  induction first generalizing index input with
  | nil => exact absurd rfl hfirst
  | cons bound rest ih =>
      have hplain := hstdout bound List.mem_cons_self
      have hmore : (rest ++ second).isEmpty = false :=
        List.isEmpty_eq_false_iff.mpr fun hnil =>
          hsecond (List.append_eq_nil_iff.mp hnil).2
      rw [List.cons_append, runStages_cons hplain, runStages_cons hplain, hmore,
        keepsOutput_check.withOutput_bind, bind_assoc]
      refine bind_congr fun _ => ?_
      rw [(keepsOutput_stageInput bound index input).withOutput_bind, bind_assoc]
      refine bind_congr fun found => ?_
      cases found with
      | error missing =>
          simp only
          rw [(keepsOutput_errorLine _).withOutput_bind, bind_assoc]
          rfl
      | ok source =>
          simp only
          rw [(keepsOutput_note _).withOutput_bind, bind_assoc]
          refine bind_congr fun _ => ?_
          cases rest with
          | nil => exact onStage_pipe_bind bound index input _ _
          | cons following rest =>
              simp only [List.isEmpty_cons, Bool.false_eq_true, if_false]
              rw [(keepsOutput_onStage_pipe input _).withOutput_bind, bind_assoc]
              refine bind_congr fun (code, next) => ?_
              by_cases hcode : code = .success
              · subst hcode
                have hrest := ih (List.cons_ne_nil following rest)
                  (fun other member => hstdout other (List.mem_cons_of_mem _ member))
                  (index + 1) next
                have hcount : index + 1 + (following :: rest).length =
                    index + (bound :: following :: rest).length := by
                  simp only [List.length_cons]
                  omega
                rw [← hcount]
                exact hrest
              · rw [withOutput_proceed_bind hcode]
                exact if_pos hcode

end PipeShell.Execution
