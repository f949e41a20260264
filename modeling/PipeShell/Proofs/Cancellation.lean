import PipeShell.Proofs.ClosedOutputs
import PipeShell.Proofs.Composition

namespace PipeShell

open Channel (Source Writer)

variable {σ α β : Type} {owner : Owner σ}

namespace Point

variable {first second third : Point σ}

/-- From the first point to the second no command has begun, no file has been opened
and nothing has been written, except perhaps to the output. -/
structure Final (first second : Point σ) : Prop where
  begun : second.begun = first.begun
  opened : second.opened = first.opened
  still : first.session.Still second.session

/-- If the run was cancelled at the first point, nothing has happened up to the
second. -/
def Leads (first second : Point σ) : Prop :=
  first.session.cancelled = true →
    first.Final second ∧ first.session.out.Spared second.session.out

private theorem Final.refl (hcancelled : first.session.cancelled = true) :
    first.Final first :=
  ⟨rfl, rfl, .refl hcancelled⟩

theorem Final.trans (hfirst : first.Final second) (hsecond : second.Final third) :
    first.Final third :=
  ⟨hsecond.begun.trans hfirst.begun, hsecond.opened.trans hfirst.opened,
    hfirst.still.trans hsecond.still⟩

private theorem Leads.trans (hfirst : first.Leads second)
    (hsecond : second.Leads third) :
    first.Leads third := by
  intro hcancelled
  obtain ⟨hfinal, hout⟩ := hfirst hcancelled
  obtain ⟨hfinal', hout'⟩ := hsecond hfinal.still.cancelled
  exact ⟨hfinal.trans hfinal', hout.trans hout'⟩

private theorem pairwise_snoc {earlier : List (Point σ)}
    (hpoints : (earlier ++ [first]).Pairwise Leads) (hstep : first.Leads second) :
    (earlier ++ [first] ++ [second]).Pairwise Leads := by
  refine List.pairwise_append.mpr ⟨hpoints, List.pairwise_singleton _ _, ?_⟩
  intro point hpoint other hother
  obtain rfl := List.mem_singleton.mp hother
  rcases List.mem_append.mp hpoint with hearlier | hlast
  · have hleads := (List.pairwise_append.mp hpoints).2.2 point hearlier first
      List.mem_cons_self
    exact hleads.trans hstep
  · obtain rfl := List.mem_singleton.mp hlast
    exact hstep

end Point

namespace Session

variable {before after session : Session (σ × Watch σ)}

def point (session : Session (σ × Watch σ)) : Point σ :=
  ⟨session.owner.2.begun, session.owner.2.opened, session.plain⟩

def trail (session : Session (σ × Watch σ)) : List (Point σ) :=
  session.owner.2.trail

structure Orderly (session : Session (σ × Watch σ)) : Prop where
  trail : session.trail.Pairwise Point.Leads
  now : ∀ point ∈ session.trail, point.session.cancelled = true →
    point.Final session.point
  caught : session.cancelled = true → ∃ point ∈ session.trail,
    point.session.cancelled = true

structure Waiting (own : Writer) (begun : Nat) (session : Session (σ × Watch σ)) :
    Prop
    extends Orderly session where
  out : session.out = own
  begun : session.owner.2.begun = begun

structure Recorded (begun : Nat) (session : Session (σ × Watch σ)) : Prop where
  trail : session.trail.Pairwise Point.Leads
  last : ∃ earlier, session.trail = earlier ++ [session.point]
  begun : session.owner.2.begun = begun

structure Left (begun : Nat) (session : Session (σ × Watch σ)) :
    Prop extends Orderly session where
  out : ∀ point ∈ session.trail, point.session.cancelled = true →
    point.session.out.Spared session.out
  begun : session.owner.2.begun = begun

private theorem Recorded.left {begun : Nat} (hrecorded : Recorded begun session) :
    Left begun session := by
  obtain ⟨hpairwise, ⟨earlier, htrail⟩, hbegun⟩ := hrecorded
  have hleads : ∀ point ∈ session.trail, point.Leads session.point := by
    intro point hpoint
    rw [htrail] at hpoint hpairwise
    rcases List.mem_append.mp hpoint with hearlier | hlast
    · exact (List.pairwise_append.mp hpairwise).2.2 point hearlier _
        List.mem_cons_self
    · obtain rfl := List.mem_singleton.mp hlast
      exact fun hcancelled => ⟨.refl hcancelled, .refl _⟩
  refine ⟨⟨hpairwise, fun point hpoint hcancelled =>
      (hleads point hpoint hcancelled).1, ?_⟩,
    fun point hpoint hcancelled => (hleads point hpoint hcancelled).2, hbegun⟩
  intro hcancelled
  have hpoint : session.point ∈ session.trail := by
    rw [htrail]
    exact List.mem_append_right _ List.mem_cons_self
  exact ⟨session.point, hpoint, hcancelled⟩

/-- A step that is not a command's: it does not write to the output, and writes
nothing at all if the run has been cancelled. -/
structure Aside (before after : Session (σ × Watch σ)) : Prop where
  watch : after.owner.2 = before.owner.2
  cancelled : after.cancelled = before.cancelled
  out : after.out = before.out
  still : before.cancelled = true → before.plain.Still after.plain

theorem Aside.refl (session : Session (σ × Watch σ)) : Aside session session :=
  ⟨rfl, rfl, rfl, fun hcancelled => .refl hcancelled⟩

private theorem Aside.trans {first second third : Session (σ × Watch σ)}
    (hfirst : Aside first second) (hsecond : Aside second third) :
    Aside first third where
  watch := hsecond.watch.trans hfirst.watch
  cancelled := hsecond.cancelled.trans hfirst.cancelled
  out := hsecond.out.trans hfirst.out
  still hcancelled :=
    (hfirst.still hcancelled).trans
      (hsecond.still (hfirst.cancelled.trans hcancelled))

def Steadfast (inv : Session (σ × Watch σ) → Prop) : Prop :=
  ∀ before after, inv before → Aside before after → inv after

theorem steadfast_orderly : Steadfast (Orderly (σ := σ)) := by
  intro before after hbefore haside
  have htrail : after.trail = before.trail := congrArg Watch.trail haside.watch
  refine ⟨htrail ▸ hbefore.trail, ?_, ?_⟩
  · intro point hpoint hcancelled
    rw [htrail] at hpoint
    have hfinal := hbefore.now point hpoint hcancelled
    refine hfinal.trans ⟨congrArg Watch.begun haside.watch,
      congrArg Watch.opened haside.watch, ?_⟩
    exact haside.still hfinal.still.cancelled
  · rw [htrail, haside.cancelled]
    exact hbefore.caught

private theorem Orderly.withOutput (horderly : Orderly session) (writer : Writer) :
    Orderly { session with out := writer } where
  trail := horderly.trail
  now point hpoint hcancelled :=
    have ⟨hbegun, hopened, hstill⟩ := horderly.now point hpoint hcancelled
    ⟨hbegun, hopened, hstill.cancelled, hstill.machine, hstill.err⟩
  caught := horderly.caught

private theorem steadfast_waiting (own : Writer) (begun : Nat) :
    Steadfast (Waiting (σ := σ) own begun) := fun _ _ hbefore haside =>
  ⟨steadfast_orderly _ _ hbefore.toOrderly haside, haside.out.trans hbefore.out,
    (congrArg Watch.begun haside.watch).trans hbefore.begun⟩

private theorem steadfast_left (begun : Nat) : Steadfast (Left (σ := σ) begun) := by
  intro before after hbefore haside
  refine ⟨steadfast_orderly _ _ hbefore.toOrderly haside, ?_,
    (congrArg Watch.begun haside.watch).trans hbefore.begun⟩
  have htrail : after.trail = before.trail := congrArg Watch.trail haside.watch
  rw [htrail, haside.out]
  exact hbefore.out

end Session

namespace Act

open Session

variable {begun : Nat} {own : Writer} {act : Act (σ × Watch σ) α}
  {inv last : Session (σ × Watch σ) → Prop}

private theorem ensures_request (request : Request) :
    Ensures (Recorded begun) (request.watched owner) (fun _ => Recorded begun)
      fun _ => Recorded begun := by
  refine ⟨fun before ⟨hpairwise, ⟨earlier, htrail⟩, hbegun⟩ => ?_⟩
  let ended := outcome (request.act owner) before.plain
  let watch := { before.owner.2 with
    opened := before.owner.2.opened + (request.opens ended.1).toNat }
  have hstep : before.point.Leads ⟨watch.begun, watch.opened, ended.2⟩ := by
    intro hcancelled
    have heffect : request.Effect before.plain ended :=
      request.effect owner before.plain
    refine ⟨⟨rfl, ?_, heffect.still hcancelled⟩, heffect.out hcancelled⟩
    change before.owner.2.opened + (request.opens ended.1).toNat =
      before.owner.2.opened
    rw [heffect.opens hcancelled]
    rfl
  change Recorded begun (ended.2.beside (watch.record ended.2))
  refine ⟨?_, ⟨before.trail, rfl⟩, hbegun⟩
  change (before.trail ++ [_]).Pairwise Point.Leads
  rw [htrail] at hpairwise ⊢
  exact Point.pairwise_snoc hpairwise hstep

private theorem ensures_watched (owner : Owner σ) (script : Script σ α) :
    Ensures (Recorded begun) (script.watched owner) (fun _ => Recorded begun)
      fun _ => Recorded begun := by
  induction script with
  | done value => exact ensures_pure fun _ hbefore => hbefore
  | fail fault => exact ensures_throw fun _ hbefore => hbefore
  | ask request next ih => exact (ensures_request request).bind ih

def StepsAside (act : Act (σ × Watch σ) α) : Prop :=
  ∀ before, Aside before (outcome act before).2

theorem StepsAside.ensures (hact : StepsAside act) (hinv : Steadfast inv)
    (hlast : ∀ session, inv session → last session) :
    Ensures inv act (fun _ => inv) fun _ => last := by
  refine ⟨fun before hbefore => ?_⟩
  have hafter := hinv _ _ hbefore (hact before)
  rcases hended : outcome act before with
    ⟨fault | value, after⟩ <;> rw [hended] at hafter
  · exact hlast _ hafter
  · exact hafter

theorem StepsAside.bind {next : α → Act (σ × Watch σ) β} (hact : StepsAside act)
    (hnext : ∀ value, StepsAside (next value)) : StepsAside (act >>= next) := by
  intro before
  have hafter := hact before
  rw [outcome_bind]
  generalize outcome act before = ended at hafter
  rcases ended with ⟨fault | value, after⟩
  · exact hafter
  · exact hafter.trans (hnext value after)

theorem stepsAside_pure (value : α) :
    StepsAside (pure value : Act (σ × Watch σ) α) :=
  fun before => .refl before

private theorem stepsAside_throw (fault : Fault) :
    StepsAside (throw fault : Act (σ × Watch σ) α) :=
  fun before => .refl before

theorem stepsAside_note (note : Journal.Note) :
    StepsAside (σ := σ) (Act.note note) :=
  fun _ => ⟨rfl, rfl, rfl, fun hcancelled => ⟨hcancelled, .note .refl note, .refl _⟩⟩

theorem stepsAside_errorLine (line : String) :
    StepsAside (σ := σ) (errorLine line) := by
  intro before
  by_cases hcancelled : before.cancelled = true
  · rw [errorLine, outcome_check_bind hcancelled]
    exact .refl before
  · rw [errorLine, outcome_bind, outcome_check, if_neg hcancelled]
    dsimp only [andThen]
    rw [outcome_reportLine]
    split
    · exact ⟨rfl, rfl, rfl, fun h => absurd h hcancelled⟩
    · exact .refl before

end Act

namespace Execution

open Act Session

variable {begun : Nat} {own : Writer} {home : String}

def Ready (own : Writer) (begun : Nat) (session : Session (σ × Watch σ)) : Prop :=
  Waiting own begun session ∧ session.cancelled = false

theorem steadfast_ready : Steadfast (Ready (σ := σ) own begun) :=
  fun _ _ hbefore haside =>
  ⟨steadfast_waiting own begun _ _ hbefore.1 haside,
    haside.cancelled.trans hbefore.2⟩

private theorem ensures_begin {last : Fault → Session (σ × Watch σ) → Prop} :
    Ensures (Ready own begun) (mark fun watch =>
      { watch with begun := watch.begun + 1 }) (fun _ => Recorded (begun + 1))
        last := by
  refine ensures_modify fun before ⟨hwaiting, hlive⟩ => ?_
  refine ⟨?_, ⟨before.trail, rfl⟩, congrArg (· + 1) hwaiting.begun⟩
  refine List.pairwise_append.mpr ⟨hwaiting.trail, List.pairwise_singleton _ _, ?_⟩
  -- No point so far has been cancelled: a cancellation would have lasted until now.
  intro point hpoint _ _ hcancelled
  have hnow : before.cancelled = true :=
    (hwaiting.now point hpoint hcancelled).still.cancelled
  rw [hlive] at hnow
  cases hnow

private theorem stepsAside_recover (bound : BoundCommand) (fault : Fault) :
    StepsAside (σ := σ) (recover bound fault) := by
  have hreport (note : Journal.Note) (line : String) (code : ExitCode) :
      StepsAside (σ := σ) (Act.note note >>= fun _ => errorLine line >>= fun _ =>
        pure code) :=
    (stepsAside_note note).bind fun _ => (stepsAside_errorLine line).bind fun _ =>
      stepsAside_pure code
  unfold recover
  split
  · exact stepsAside_throw _
  · exact stepsAside_throw _
  · exact hreport _ _ _
  · exact hreport _ _ _

private theorem ensures_command (owner : Owner σ)
    (scripts : BoundCommand → Context → Script σ Status) (bound : BoundCommand)
    (input : Source) :
    Ensures (Ready own begun)
      (runCommand owner.beside (watching owner scripts) home bound input)
      (fun _ => Left (begun + 1)) fun _ => Left (begun + 1) := by
  have hscript (context : Context) : Ensures (Ready own begun)
      (watching owner scripts bound context >>= fun status => lift status.exitCode)
      (fun _ => Left (begun + 1)) fun _ => Left (begun + 1) := by
    have hrequests := (ensures_watched owner (scripts bound context)).imp_faulty
      fun _ _ (hafter : Recorded (begun + 1) _) => hafter.left
    refine Ensures.bind (ensures_begin.bind fun _ => hrequests) fun status => ?_
    exact ensures_lift (fun _ _ _ hafter => hafter.left) fun _ _ _ hafter =>
      hafter.left
  refine ensures_session_bind fun before hbefore => ?_
  refine ensures_tryCatch ((hscript _).startingIn hbefore) fun fault => ?_
  exact (stepsAside_recover bound fault).ensures (steadfast_left _) fun _ hafter =>
    hafter

private theorem stepsAside_stageInput (bound : BoundCommand) (index : Nat)
    (current : Source) :
    StepsAside (σ := σ) (stageInput home bound index current) := by
  unfold stageInput
  cases bound.redirections.stdin with
  | none => exact stepsAside_pure _
  | some path =>
      by_cases hindex : index ≠ 0
      · simp only [if_pos hindex]
        exact (stepsAside_note _).bind fun _ => stepsAside_pure _
      · simp only [if_neg hindex]
        refine StepsAside.bind (fun before => .refl before) fun resolved => ?_
        refine StepsAside.bind (fun before => .refl before) fun tree => ?_
        split
        · exact stepsAside_pure _
        · exact stepsAside_pure _

/-- The last stage writes to the output of the pipeline, unless it is redirected. -/
def Directs (bound : BoundCommand) (isLast : Bool) (outlet : Outlet) : Prop :=
  outlet = .own ↔ bound.redirections.stdout = none ∧ isLast = true

private theorem ensures_stageOutlet (bound : BoundCommand) (isLast : Bool) :
    Ensures (Ready (σ := σ) own begun) (stageOutput home bound isLast)
      (fun found after => Ready own begun after ∧ ∀ outlet, found = .ok outlet →
        Directs bound isLast outlet)
      fun _ => Ready own begun := by
  unfold stageOutput
  cases hstdout : bound.redirections.stdout with
  | none =>
      refine ensures_pure fun _ hbefore => ⟨hbefore, ?_⟩
      rintro _ ⟨⟩
      rw [Directs, hstdout]
      cases isLast <;> simp
  | some output =>
      have hresolve : Ensures (Ready (σ := σ) own begun) (resolve home output.path)
          (fun _ => Ready own begun) fun _ => Ready own begun :=
        StepsAside.ensures (fun before => .refl before) steadfast_ready
          fun _ hbefore => hbefore
      refine hresolve.bind fun resolved =>
        ensures_session_bind fun before hbefore => ?_
      cases before.machine.openOutput resolved output.append with
      | ok opened =>
          constructor
          rintro _ rfl
          refine ⟨steadfast_ready _ _ hbefore ⟨rfl, rfl, rfl, ?_⟩, ?_⟩
          · intro hcancelled
            rw [hbefore.2] at hcancelled
            cases hcancelled
          · rintro _ ⟨⟩
            rw [Directs, hstdout]
            simp
      | error fault =>
          cases fault with
          | failure cause =>
              refine ensures_pure ?_
              rintro _ rfl
              refine ⟨hbefore, ?_⟩
              rintro _ ⟨⟩
          | _ =>
              refine ensures_throw ?_
              rintro _ rfl
              exact hbefore

def writesOwn (pipeline : BoundPipeline) : Bool :=
  pipeline.getLast?.any (·.redirections.stdout.isNone)

/-- After the stages from number `index` on. If the last of them has begun and writes
to the output of the pipeline, it has left that output alone since a cancellation;
nothing else writes there. -/
structure Settled (own : Writer) (index : Nat) (pipeline : BoundPipeline)
    (session : Session (σ × Watch σ)) : Prop extends Orderly session where
  owned : session.owner.2.begun = index + pipeline.length →
    writesOwn pipeline = true →
    ∀ point ∈ session.trail, point.session.cancelled = true →
      point.session.out.Spared session.out
  kept : ¬(session.owner.2.begun = index + pipeline.length ∧
    writesOwn pipeline = true) →
    session.out = own

theorem steadfast_settled (own : Writer) (index : Nat) (pipeline : BoundPipeline) :
    Steadfast (Settled (σ := σ) own index pipeline) := by
  intro before after hbefore haside
  refine ⟨steadfast_orderly _ _ hbefore.toOrderly haside, ?_, ?_⟩
  · rw [Session.trail, haside.watch, haside.out]
    exact hbefore.owned
  · rw [haside.watch, haside.out]
    exact hbefore.kept

variable {index : Nat} {bound : BoundCommand} {rest pipeline : BoundPipeline}
  {session : Session (σ × Watch σ)}

private theorem settled_of_waiting (hwaiting : Waiting own index session) :
    Settled own index pipeline session := by
  refine ⟨hwaiting.toOrderly, ?_, fun _ => hwaiting.out⟩
  intro hbegun hown
  rw [hwaiting.begun] at hbegun
  obtain rfl : pipeline = [] := List.eq_nil_of_length_eq_zero (by omega)
  cases hown

private theorem Settled.cons (hsettled : Settled own (index + 1) rest session)
    (hrest : rest ≠ []) :
    Settled own index (bound :: rest) session := by
  have hlength : index + (bound :: rest).length = index + 1 + rest.length := by
    rw [List.length_cons]
    omega
  have hown : writesOwn (bound :: rest) = writesOwn rest := by
    obtain ⟨other, more, rfl⟩ := List.exists_cons_of_ne_nil hrest
    rfl
  refine ⟨hsettled.toOrderly, ?_, ?_⟩
  · rw [hlength, hown]
    exact hsettled.owned
  · rw [hlength, hown]
    exact hsettled.kept

/-- After the command of a stage: the output is that of the pipeline again, unless it
never was another. -/
def Followed (outlet : Outlet) (own : Writer) (begun : Nat)
    (session : Session (σ × Watch σ)) : Prop :=
  match outlet with
  | .own => Left begun session
  | _ => Waiting own begun session

theorem Followed.settled {outlet : Outlet}
    (hfollowed : Followed outlet own (index + 1) session)
    (hdirects : Directs bound rest.isEmpty outlet) :
    Settled own index (bound :: rest) session := by
  have hnone : outlet ≠ .own → Waiting own (index + 1) session →
      Settled own index (bound :: rest) session := by
    intro hother hwaiting
    refine ⟨hwaiting.toOrderly, ?_, fun _ => hwaiting.out⟩
    intro hbegun hown
    rw [hwaiting.begun, List.length_cons] at hbegun
    obtain rfl : rest = [] := List.eq_nil_of_length_eq_zero (by omega)
    exact absurd (hdirects.mpr ⟨Option.isNone_iff_eq_none.mp hown, rfl⟩) hother
  cases outlet with
  | own =>
      obtain ⟨hstdout, hempty⟩ := hdirects.mp rfl
      obtain rfl := List.isEmpty_iff.mp hempty
      refine ⟨hfollowed.toOrderly, fun _ _ => hfollowed.out, ?_⟩
      intro hnot
      refine absurd ⟨hfollowed.begun, ?_⟩ hnot
      rw [writesOwn, List.getLast?_singleton, Option.any_some, hstdout]
      rfl
  | pipe => exact hnone nofun hfollowed
  | file handle => exact hnone nofun hfollowed

private theorem Followed.waiting {outlet : Outlet}
    (hfollowed : Followed outlet own begun session) (hother : outlet ≠ .own) :
    Waiting own begun session := by
  cases outlet with
  | own => exact absurd rfl hother
  | pipe => exact hfollowed
  | file handle => exact hfollowed

private theorem ensures_stageCommand_watched {act : Act (σ × Watch σ) ExitCode}
    (hact : ∀ given, Ensures (Ready given begun) act (fun _ => Left (begun + 1))
      fun _ => Left (begun + 1)) (outlet : Outlet) (current : Source) :
    Ensures (Ready own begun) (onStage outlet current act)
      (fun _ => Followed outlet own (begun + 1)) fun _ =>
        Followed outlet own (begun + 1) := by
  have hgiven (writer : Writer) : Ensures (Ready own begun) (withOutput writer act)
      (fun _ => Waiting own (begun + 1)) fun _ => Waiting own (begun + 1) := by
    refine ensures_each fun before ⟨hwaiting, hlive⟩ => ?_
    have hback (after : Session (σ × Watch σ)) (hleft : Left (begun + 1) after) :
        Waiting own (begun + 1) { after with out := before.out } :=
      ⟨hleft.toOrderly.withOutput _, hwaiting.out, hleft.begun⟩
    exact ensures_withOutput
      ((hact writer).startingIn
        ⟨⟨hwaiting.toOrderly.withOutput _, rfl, hwaiting.begun⟩, hlive⟩)
      (fun _ => hback) fun _ => hback
  cases outlet with
  | own => exact (hact own).bind fun _ => ensures_pure fun _ hafter => hafter
  | pipe => exact (hgiven _).bind fun _ => ensures_pure fun _ hafter => hafter
  | file handle => exact (hgiven _).bind fun _ => ensures_pure fun _ hafter => hafter

private theorem aside_close (outlet : Outlet) (session : Session (σ × Watch σ)) :
    Aside session (outlet.close session) := by
  cases outlet with
  | own | pipe => exact .refl session
  | file handle =>
      exact ⟨rfl, rfl, rfl, fun hcancelled =>
        ⟨hcancelled, .closeOutput .refl handle, .refl _⟩⟩

private theorem ensures_check_ready :
    Ensures (Waiting (σ := σ) own begun) check (fun _ => Ready own begun)
      fun _ => Waiting own begun := by
  refine ⟨fun before hbefore => ?_⟩
  rw [outcome_check]
  cases hcancelled : before.cancelled with
  | true => exact hbefore
  | false => exact ⟨hbefore, hcancelled⟩

private theorem ensures_proceed {outlet : Outlet}
    (hdirects : Directs bound rest.isEmpty outlet)
    {following : Source → Act (σ × Watch σ) ExitCode}
    (hnone : rest = [] → ∀ next, following next = pure .success)
    (hfollowing : ∀ next, Ensures (Waiting own (index + 1)) (following next)
      (fun _ => Settled own (index + 1) rest) fun _ => Settled own (index + 1) rest)
    (ended : ExitCode × Source) :
    Ensures (Followed outlet own (index + 1)) (proceed index bound following ended)
      (fun _ => Settled own index (bound :: rest)) fun _ => Settled own index
      (bound :: rest) := by
  obtain ⟨code, next⟩ := ended
  rw [proceed]
  split
  · have hnote := (stepsAside_note (stoppedNote index bound code)).ensures
      (steadfast_settled (σ := σ) own index (bound :: rest)) fun _ hafter => hafter
    refine Ensures.imp_pre (hnote.bind fun _ => ensures_pure fun _ hafter =>
      hafter) ?_
    exact fun _ hfollowed => hfollowed.settled hdirects
  · by_cases hrest : rest = []
    · rw [hnone hrest]
      exact ensures_pure fun _ hfollowed => hfollowed.settled hdirects
    · have hother : outlet ≠ .own := fun hown =>
        hrest (List.isEmpty_iff.mp (hdirects.mp hown).2)
      exact (hfollowing next).imp (fun _ hfollowed => hfollowed.waiting hother)
        (fun _ _ hafter => hafter.cons hrest) fun _ _ hafter => hafter.cons hrest

private theorem ensures_stages (owner : Owner σ)
    (scripts : BoundCommand → Context → Script σ Status) (index : Nat)
    (current : Source) (pipeline : BoundPipeline) : Ensures (Waiting own index)
      (runStages owner.beside (watching owner scripts) home index current pipeline)
      (fun _ => Settled own index pipeline) fun _ => Settled own index pipeline := by
  -- Every stage finds the session waiting: only the last one may leave it otherwise,
  -- and then there is no stage after it.
  induction pipeline generalizing index current with
  | nil => exact ensures_pure fun _ hbefore => settled_of_waiting hbefore
  | cons bound rest ih =>
      have hready (after : Session (σ × Watch σ)) (hafter : Ready own index after) :
          Settled own index (bound :: rest) after := settled_of_waiting hafter.1
      have hreport (line : String) (code : ExitCode) :
          Ensures (Ready (σ := σ) own index)
            (errorLine line >>= fun _ => pure code)
              (fun _ => Settled own index (bound :: rest))
            fun _ => Settled own index (bound :: rest) :=
        ((stepsAside_errorLine line).ensures steadfast_ready hready).bind
          fun _ => ensures_pure hready
      rw [runStages]
      refine (ensures_check_ready.imp_faulty fun _ _ => settled_of_waiting).bind
        fun _ => ?_
      refine ((stepsAside_stageInput bound index current).ensures steadfast_ready
        hready).bind
        fun found => ?_
      cases found with
      | error missing => exact hreport _ _
      | ok input =>
          refine ((ensures_stageOutlet bound rest.isEmpty).imp_faulty fun _ =>
            hready).bind
            fun found => ?_
          cases found with
          | error cause => exact (hreport _ _).imp_pre fun _ hbefore => hbefore.1
          | ok outlet =>
              refine ensures_each fun before hstart => Ensures.startingIn ?_ hstart.1
              have hdirects := hstart.2 outlet rfl
              have hclose (after : Session (σ × Watch σ))
                  (hafter : Settled own index (bound :: rest) after) :
                  Settled own index (bound :: rest) (outlet.close after) :=
                steadfast_settled _ _ _ _ _ hafter (aside_close outlet after)
              refine ensures_afterwards ?_ (fun _ => hclose) fun _ => hclose
              refine ((stepsAside_note _).ensures steadfast_ready hready).bind
                fun _ => ?_
              refine ((ensures_stageCommand_watched
                (fun _ => ensures_command owner scripts bound input) outlet
                  current).imp_faulty fun _ _ hafter => hafter.settled hdirects).bind
                fun ended => ?_
              refine ensures_proceed hdirects ?_
                (fun next => ih (index + 1) next) ended
              rintro rfl next
              rfl

theorem outcome_execute_of_cancelled (owner : Owner σ) (body : Body σ)
    (home : String) (input : Source) {session : Session σ}
    (hcancelled : session.cancelled = true) (hpipeline : pipeline ≠ []) :
    outcome (execute owner body home input pipeline) session =
      (.error .cancellation, session) := by
  obtain ⟨bound, rest, rfl⟩ := List.exists_cons_of_ne_nil hpipeline
  rw [execute, runStages]
  exact outcome_check_bind hcancelled _

private theorem settled_execute (owner : Owner σ)
    (scripts : BoundCommand → Context → Script σ Status) (home : String)
    (input : Source) (pipeline : BoundPipeline) {session : Session σ}
    (hlive : session.cancelled = false) : Settled session.out 0 pipeline
      (outcome (execute owner.beside (watching owner scripts) home input pipeline)
        (session.beside .start)).2 := by
  have hwaiting : Waiting session.out 0 (session.beside .start) := by
    refine ⟨⟨.nil, fun _ hpoint => absurd hpoint List.not_mem_nil, fun hcancelled =>
      ?_⟩, rfl, rfl⟩
    exact absurd (hlive.symm.trans hcancelled) Bool.false_ne_true
  exact (ensures_stages owner scripts 0 input pipeline).after hwaiting

private theorem trail_execute_of_cancelled (owner : Owner σ)
    (scripts : BoundCommand → Context → Script σ Status) (home : String)
    (input : Source) (pipeline : BoundPipeline) {session : Session σ}
    (hcancelled : session.cancelled = true) :
    (outcome (execute owner.beside (watching owner scripts) home input pipeline)
      (session.beside .start)).2.trail = [] := by
  have hbeside : (session.beside (Watch.start (σ := σ))).cancelled = true :=
    hcancelled
  by_cases hpipeline : pipeline = []
  · subst hpipeline
    rfl
  · rw [outcome_execute_of_cancelled _ _ _ _ hbeside hpipeline]
    rfl

/-- A run whose commands heed the cancellation. If it has been cancelled before, it
does nothing. The files that it opens are closed when it ends. However its commands
are written as scripts, watching them sees the cancellation, and from then on no
command begins, no file is opened, and nothing is written except to the journal. -/
theorem cancellation_is_final {body : Body σ}
    (hbody : ∀ bound ∈ pipeline, ∀ context, Heeds owner (body bound context))
    (home : String) (input : Source) (session : Session σ) :
    let ended := outcome (execute owner body home input pipeline) session
    (session.cancelled = true → pipeline ≠ [] →
      ended = (.error .cancellation, session)) ∧
      ClosedFrom session.machine.outputs.length ended.2 ∧
      (∃ scripts, Follows owner body pipeline scripts) ∧
      ∀ scripts, Follows owner body pipeline scripts →
        let watched := outcome (execute owner.beside (watching owner scripts) home
          input pipeline)
          (session.beside .start)
        (watched.1, watched.2.plain) = ended ∧
          (session.cancelled = false → ended.2.cancelled = true →
            ∃ point ∈ watched.2.trail, point.session.cancelled = true) ∧
          watched.2.trail.Pairwise Point.Leads ∧
          ∀ point ∈ watched.2.trail, point.session.cancelled = true →
            point.Final watched.2.point ∧
              point.session.machine.Quiet ended.2.machine ∧
              ended.2.machine.outputs.map OutputFile.asClosed =
                point.session.machine.outputs.map OutputFile.asClosed ∧
              if point.begun = pipeline.length ∧ writesOwn pipeline = true then
                point.session.out.Spared ended.2.out
              else ended.2.out = session.out := by
  refine ⟨outcome_execute_of_cancelled owner body home input,
    closedFrom_execute hbody home input session, exists_follows hbody,
    fun scripts hfollows => ?_⟩
  obtain ⟨hresult, hplain⟩ := outcome_watching hfollows home input session .start
  refine ⟨Prod.ext hresult hplain, ?_⟩
  rw [← hplain]
  cases hlive : session.cancelled with
  | true =>
      -- No command has begun, and there is nothing on the trail.
      have htrail := trail_execute_of_cancelled owner scripts home input
        pipeline hlive
      rw [htrail]
      exact ⟨fun hfalse => absurd hfalse.symm Bool.false_ne_true, .nil,
        fun _ hpoint => absurd hpoint List.not_mem_nil⟩
  | false =>
      have hsettled := settled_execute owner scripts home input pipeline hlive
      refine ⟨fun _ => hsettled.caught, hsettled.trail,
        fun point hpoint hcancelled => ?_⟩
      have hfinal := hsettled.now point hpoint hcancelled
      refine ⟨hfinal, hfinal.still.machine.quiet, hfinal.still.machine.outputs, ?_⟩
      have hbegun := hfinal.begun
      split
      · next hown =>
          refine hsettled.owned ?_ hown.2 point hpoint hcancelled
          rw [Nat.zero_add, ← hown.1]
          exact hbegun
      · next hother =>
          refine hsettled.kept fun ⟨hlast, hown⟩ => hother ⟨?_, hown⟩
          rw [Nat.zero_add] at hlast
          exact hbegun.symm.trans hlast

/-! A command that goes on after it has cancelled the run, behind another and into a
file. -/

def heedlessActions : List Action := [.line "x", .cancel, .line "y"]

def haltingPipeline : BoundPipeline :=
  [ sampleCommand "echo" .echo ["a"],
    { sampleCommand "halt" .echo [] with
      command := ⟨"halt", "halt", [], .actions heedlessActions, .none⟩
      redirections := ⟨none, some ⟨"/out", false⟩⟩ } ]

private theorem heeds_haltingPipeline : ∀ bound ∈ haltingPipeline, ∀ context,
    Heeds sampleOwner (commands sampleOwner bound context) := by
  have hheedful : ∀ bound ∈ haltingPipeline,
      bound.command.program.heedful = true := by
    decide
  exact fun bound hbound context =>
    bound.command.heeds_run context (hheedful bound hbound)

private theorem outcome_haltingPipeline :
    let ended := outcome (execute sampleOwner (commands sampleOwner) "/" .empty
      haltingPipeline)
      sampleSession
    ended.2.cancelled = true ∧
      ended.2.machine.outputs = [⟨"/out", ["out"], false, 2, true⟩] ∧
      ended.2.machine.files.read? "/out" = some (Text.Utf8.encode "x\n") := by
  decide +kernel

theorem cancellation_is_final_halting :
    (∀ bound ∈ haltingPipeline, ∀ context,
      Heeds sampleOwner (commands sampleOwner bound context)) ∧
      let ended := outcome (execute sampleOwner (commands sampleOwner) "/" .empty
        haltingPipeline)
        sampleSession
      ended.2.machine.outputs = [⟨"/out", ["out"], false, 2, true⟩] ∧
        ended.2.machine.files.read? "/out" = some (Text.Utf8.encode "x\n") ∧
        ∃ scripts, Follows sampleOwner (commands sampleOwner)
          haltingPipeline scripts ∧
          let watched := outcome (execute sampleOwner.beside
            (watching sampleOwner scripts) "/" .empty haltingPipeline)
              (sampleSession.beside .start)
          ∃ point ∈ watched.2.trail, point.session.cancelled = true ∧
            point.Final watched.2.point ∧
            ended.2.out = sampleSession.out := by
  obtain ⟨hafter, houtputs, hread⟩ := outcome_haltingPipeline
  obtain ⟨-, -, ⟨scripts, hfollows⟩, hwatched⟩ :=
    cancellation_is_final heeds_haltingPipeline "/" .empty sampleSession
  obtain ⟨-, hcaught, -, hpoints⟩ := hwatched scripts hfollows
  obtain ⟨point, hpoint, hcancelled⟩ := hcaught rfl hafter
  obtain ⟨hfinal, -, -, hout⟩ := hpoints point hpoint hcancelled
  have hredirected : ¬(point.begun = haltingPipeline.length ∧
      writesOwn haltingPipeline = true) :=
    fun h => absurd h.2 (by decide)
  rw [if_neg hredirected] at hout
  exact ⟨heeds_haltingPipeline, houtputs, hread, scripts, hfollows, point, hpoint,
    hcancelled, hfinal, hout⟩

/-! A command that fails after it has cancelled the run, while the journal and the
errors go to the same console. -/

def lateFailure : Fault := .failure (.runtime "stopped" none [])

def failingCommand : BoundCommand :=
  { sampleCommand "halt" .echo [] with
    command := ⟨"halt", "halt", [], .actions [.cancel, .raise lateFailure], .none⟩ }

def failingScript : Script Unit Status := .ask .cancel fun _ => .fail lateFailure

def consoleSession : Session Unit := { sampleSession with err := .errorConsole }

theorem note_follows_cancellation :
    Follows sampleOwner (commands sampleOwner) [failingCommand]
      (fun _ _ => failingScript) ∧
      let watched := outcome (execute sampleOwner.beside
        (watching sampleOwner fun _ _ => failingScript) "/" .empty [failingCommand])
        (consoleSession.beside .start)
      ∃ point ∈ watched.2.trail, point.session.cancelled = true ∧
        point.session.err = .errorConsole ∧ watched.2.err = .errorConsole ∧
        watched.2.machine.console.err ≠ point.session.machine.console.err := by
  refine ⟨?_, ?_⟩
  · intro bound hbound context
    obtain rfl := List.mem_singleton.mp hbound
    rfl
  · refine ⟨_, List.mem_cons_of_mem _ List.mem_cons_self, rfl, rfl, rfl, ?_⟩
    decide +kernel

end Execution

end PipeShell
