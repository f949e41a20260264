import PipeShell.Session

namespace PipeShell.Act

open Channel (Writer)

variable {σ τ α β : Type}

def outcome (act : Act σ α) (session : Session σ) : Except Fault α × Session σ :=
  act.run.run session

theorem ext {left right : Act σ α}
    (hequal : ∀ session, outcome left session = outcome right session) :
    left = right :=
  funext hequal

/-- What follows an action: nothing if it ended in a fault. -/
def andThen (next : α → Act σ β) :
    Except Fault α × Session σ → Except Fault β × Session σ
  | (.ok value, session) => outcome (next value) session
  | (.error fault, session) => (.error fault, session)

def orElse (handle : Fault → Act σ α) :
    Except Fault α × Session σ → Except Fault α × Session σ
  | (.ok value, session) => (.ok value, session)
  | (.error fault, session) => outcome (handle fault) session

theorem outcome_lift (result : Except Fault α) (session : Session σ) :
    outcome (lift result) session = (result, session) := by
  cases result <;> rfl

theorem outcome_bind (act : Act σ α) (next : α → Act σ β) (session : Session σ) :
    outcome (act >>= next) session = andThen next (outcome act session) := by
  change (ExceptT.bindCont next (outcome act session).1).run
    (outcome act session).2 = _
  rcases outcome act session with ⟨_ | _, after⟩ <;> rfl

theorem outcome_tryCatch (act : Act σ α) (handle : Fault → Act σ α)
    (session : Session σ) :
    outcome (tryCatch act handle) session = orElse handle (outcome act session) := by
  change StateT.run (ExceptT.tryCatch act handle) session =
    orElse handle (StateT.run act session)
  rw [ExceptT.tryCatch, ExceptT.mk, StateT.run_bind]
  rcases StateT.run act session with ⟨_ | _, after⟩ <;> rfl

theorem outcome_withOutput (writer : Writer) (act : Act σ α) (session : Session σ) :
    outcome (withOutput writer act) session =
      ((outcome act { session with out := writer }).1.map
          (·, (outcome act { session with out := writer }).2.out),
        { (outcome act { session with out := writer }).2 with out :=
          session.out }) := rfl

theorem outcome_files (session : Session σ) :
    outcome files session = (.ok session.machine.files, session) := rfl

theorem outcome_check (session : Session σ) :
    outcome check session =
      (if session.cancelled then .error .cancellation else .ok (), session) := by
  change outcome (if session.cancelled then throw Fault.cancellation else pure ())
    session = _
  cases session.cancelled <;> rfl

theorem outcome_session (session : Session σ) :
    outcome Act.session session = (.ok session, session) := rfl

theorem outcome_check_of_live {session : Session σ}
    (hlive : session.cancelled = false) :
    outcome check session = (.ok (), session) := by
  rw [outcome_check, hlive]
  rfl

theorem outcome_writeLine (line : String) {session : Session σ}
    (hlive : session.cancelled = false) :
    outcome (writeLine line) session =
      match session.out.writeLine session.machine line with
      | .ok (out, machine) => (.ok (), { session with out, machine })
      | .error fault => (.error fault, session) := by
  rw [writeLine, outcome_bind, outcome_check_of_live hlive]
  change outcome (lift (session.out.writeLine session.machine line) >>=
    fun written =>
    set { session with out := written.1, machine := written.2 }) session = _
  rw [outcome_bind, outcome_lift]
  cases session.out.writeLine session.machine line <;> rfl

theorem outcome_reportLine (line : String) (session : Session σ) :
    outcome (reportLine line) session =
      match session.err.writeLine session.machine line with
      | .ok (err, machine) => (.ok (), { session with err, machine })
      | .error fault => (.error fault, session) := by
  change outcome (lift (session.err.writeLine session.machine line) >>=
    fun written =>
    set { session with err := written.1, machine := written.2 }) session = _
  rw [outcome_bind, outcome_lift]
  cases session.err.writeLine session.machine line <;> rfl

theorem afterwards_id (act : Act σ α) :
    afterwards (fun session => session) act = act := rfl

theorem withOutput_pure (writer : Writer) (value : α) :
    withOutput writer (pure value : Act σ α) = pure (value, writer) := rfl

theorem withOutput_bind (writer : Writer) (act : Act σ α) (next : α → Act σ β) :
    withOutput writer (act >>= next) =
      withOutput writer act >>= fun (value, written) =>
        withOutput written (next value) := by
  apply ext
  intro session
  rw [outcome_bind, outcome_withOutput, outcome_withOutput, outcome_bind]
  rcases outcome act { session with out := writer } with
    ⟨fault | value, after⟩ <;> rfl

def KeepsOutput (act : Act σ α) : Prop :=
  ∀ writer, withOutput writer act = act >>= fun value => pure (value, writer)

theorem KeepsOutput.withOutput_bind {act : Act σ α} (hkeeps : KeepsOutput act)
    (writer : Writer) (next : α → Act σ β) :
    withOutput writer (act >>= next) = act >>= fun value =>
      withOutput writer (next value) := by
  rw [Act.withOutput_bind, hkeeps, bind_assoc]
  rfl

theorem KeepsOutput.bind {act : Act σ α} {next : α → Act σ β}
    (hact : KeepsOutput act) (hnext : ∀ value, KeepsOutput (next value)) :
    KeepsOutput (act >>= next) := by
  intro writer
  rw [hact.withOutput_bind, bind_assoc]
  exact bind_congr fun value => hnext value writer

theorem keepsOutput_pure (value : α) : KeepsOutput (pure value : Act σ α) :=
  fun _ => rfl

theorem keepsOutput_withOutput (writer : Writer) (act : Act σ α) :
    KeepsOutput (withOutput writer act) := by
  intro outer
  apply ext
  intro session
  rw [outcome_withOutput, outcome_bind, outcome_withOutput, outcome_withOutput]
  rcases outcome act { session with out := writer } with
    ⟨fault | value, after⟩ <;> rfl

theorem keepsOutput_check : KeepsOutput (check : Act σ Unit) := by
  intro writer
  apply ext
  rintro ⟨machine, cancelled, out, err, directory, previous, registry, view, owner⟩
  cases cancelled <;> rfl

theorem keepsOutput_note (note : Journal.Note) :
    KeepsOutput (Act.note note : Act σ Unit) :=
  fun _ => rfl

theorem keepsOutput_errorLine (line : String) :
    KeepsOutput (errorLine line : Act σ Unit) := by
  apply keepsOutput_check.bind
  intro _ writer
  apply ext
  intro session
  rw [outcome_withOutput, outcome_bind, outcome_reportLine, outcome_reportLine]
  cases session.err.writeLine session.machine line <;> rfl

/-- From related sessions both come to the same result, and again to related
sessions. -/
def Related (R : Session σ → Session τ → Prop) (left : Act σ α) (right : Act τ α) :
    Prop :=
  ∀ before before', R before before' →
    (outcome left before).1 = (outcome right before').1 ∧
      R (outcome left before).2 (outcome right before').2

section Related

variable {R : Session σ → Session τ → Prop}

theorem Related.cases {left : Act σ α} {right : Act τ α}
    (hact : Related R left right) {before : Session σ} {before' : Session τ}
    (hbefore : R before before') :
    (∃ fault after after', outcome left before = (.error fault, after) ∧
        outcome right before' = (.error fault, after') ∧ R after after') ∨
      ∃ value after after', outcome left before = (.ok value, after) ∧
        outcome right before' = (.ok value, after') ∧ R after after' := by
  obtain ⟨hresult, hafter⟩ := hact before before' hbefore
  rcases hleft : outcome left before with ⟨fault | value, after⟩ <;>
    rw [hleft] at hresult hafter
  · exact .inl ⟨fault, after, _, rfl, Prod.ext hresult.symm rfl, hafter⟩
  · exact .inr ⟨value, after, _, rfl, Prod.ext hresult.symm rfl, hafter⟩

theorem related_pure (value : α) : Related R (pure value) (pure value) :=
  fun _ _ hbefore => ⟨rfl, hbefore⟩

theorem related_throw (fault : Fault) :
    Related R (throw fault : Act σ α) (throw fault : Act τ α) :=
  fun _ _ hbefore => ⟨rfl, hbefore⟩

theorem related_lift (result : Except Fault α) :
    Related R (lift result) (lift result) := by
  cases result with
  | ok value => exact related_pure value
  | error fault => exact related_throw fault

theorem related_bind {left : Act σ α} {right : Act τ α} {next : α → Act σ β}
    {next' : α → Act τ β} (hact : Related R left right)
    (hnext : ∀ value, Related R (next value) (next' value)) :
    Related R (left >>= next) (right >>= next') := by
  intro before before' hbefore
  rw [outcome_bind, outcome_bind]
  obtain ⟨fault, after, after', hleft, hright, hafter⟩ |
    ⟨value, after, after', hleft, hright, hafter⟩ := hact.cases hbefore
  · rw [hleft, hright]
    exact ⟨rfl, hafter⟩
  · rw [hleft, hright]
    exact hnext value after after' hafter

theorem related_session_bind {next : Session σ → Act σ β}
    {next' : Session τ → Act τ β} (hnext : ∀ before before', R before before' →
      (outcome (next before) before).1 = (outcome (next' before') before').1 ∧
        R (outcome (next before) before).2 (outcome (next' before') before').2) :
    Related R (session >>= next) (session >>= next') := by
  intro before before' hbefore
  rw [outcome_bind, outcome_bind]
  exact hnext before before' hbefore

theorem related_modify {change : Session σ → Session σ}
    {change' : Session τ → Session τ}
    (hchange : ∀ before before', R before before' →
      R (change before) (change' before')) :
        Related R (modify change : Act σ PUnit) (modify change' : Act τ PUnit) :=
  fun before before' hbefore => ⟨rfl, hchange before before' hbefore⟩

theorem related_orElse {handle : Fault → Act σ α} {handle' : Fault → Act τ α}
    (hhandle : ∀ fault, Related R (handle fault) (handle' fault))
    {ended : Except Fault α × Session σ} {ended' : Except Fault α × Session τ}
    (hresult : ended.1 = ended'.1) (hafter : R ended.2 ended'.2) :
    (orElse handle ended).1 = (orElse handle' ended').1 ∧
      R (orElse handle ended).2 (orElse handle' ended').2 := by
  obtain ⟨result, after⟩ := ended
  obtain ⟨result', after'⟩ := ended'
  obtain rfl : result = result' := hresult
  cases result with
  | error fault => exact hhandle fault after after' hafter
  | ok value => exact ⟨rfl, hafter⟩

theorem related_tryCatch {left : Act σ α} {right : Act τ α}
    {handle : Fault → Act σ α} {handle' : Fault → Act τ α}
    (hact : Related R left right)
    (hhandle : ∀ fault, Related R (handle fault) (handle' fault)) :
    Related R (tryCatch left handle) (tryCatch right handle') := by
  intro before before' hbefore
  rw [outcome_tryCatch, outcome_tryCatch]
  obtain ⟨hresult, hafter⟩ := hact before before' hbefore
  exact related_orElse hhandle hresult hafter

theorem related_afterwards {tidy : Session σ → Session σ}
    {tidy' : Session τ → Session τ}
    (htidy : ∀ before before', R before before' → R (tidy before) (tidy' before'))
    {left : Act σ α} {right : Act τ α} (hact : Related R left right) :
    Related R (afterwards tidy left) (afterwards tidy' right) := by
  intro before before' hbefore
  obtain ⟨hresult, hafter⟩ := hact before before' hbefore
  exact ⟨hresult, htidy _ _ hafter⟩

end Related

def Preserves (bad : Session σ → Prop) (act : Act σ α) : Prop :=
  ∀ before, bad before → bad (outcome act before).2

/-- From related sessions both come to the same result, and again to related
sessions, unless the left one has gone wrong. -/
def RelatedUnless (bad : Session σ → Prop) (R : Session σ → Session τ → Prop)
    (left : Act σ α) (right : Act τ α) : Prop :=
  ∀ before before', R before before' →
    bad (outcome left before).2 ∨
      (outcome left before).1 = (outcome right before').1 ∧
        R (outcome left before).2 (outcome right before').2

section RelatedUnless

variable {bad : Session σ → Prop} {R : Session σ → Session τ → Prop}
  {left : Act σ α} {right : Act τ α}

theorem Preserves.bind {act : Act σ α} {next : α → Act σ β}
    (hact : Preserves bad act) (hnext : ∀ value, Preserves bad (next value)) :
    Preserves bad (act >>= next) := by
  intro before hbefore
  have hmiddle := hact before hbefore
  rw [outcome_bind]
  generalize outcome act before = ended at hmiddle
  rcases ended with ⟨fault | value, after⟩
  · exact hmiddle
  · exact hnext value after hmiddle

theorem preserves_lift (result : Except Fault α) :
    Preserves bad (lift result : Act σ α) := by
  intro before hbefore
  rw [outcome_lift]
  exact hbefore

theorem Related.unless (hact : Related R left right) :
    RelatedUnless bad R left right :=
  fun before before' hbefore => .inr (hact before before' hbefore)

theorem RelatedUnless.related (hact : RelatedUnless (fun _ => False) R left right) :
    Related R left right :=
  fun before before' hbefore => (hact before before' hbefore).resolve_left id

theorem Related.bind_unless {next : α → Act σ β} {next' : α → Act τ β}
    (hact : Related R left right)
    (hnext : ∀ value, RelatedUnless bad R (next value) (next' value)) :
    RelatedUnless bad R (left >>= next) (right >>= next') := by
  intro before before' hbefore
  rw [outcome_bind, outcome_bind]
  obtain ⟨fault, after, after', hleft, hright, hafter⟩ |
    ⟨value, after, after', hleft, hright, hafter⟩ := hact.cases hbefore
  · rw [hleft, hright]
    exact .inr ⟨rfl, hafter⟩
  · rw [hleft, hright]
    exact hnext value after after' hafter

theorem RelatedUnless.bind {next : α → Act σ β} {next' : α → Act τ β}
    (hact : RelatedUnless bad R left right)
    (hnext : ∀ value, RelatedUnless bad R (next value) (next' value))
    (hbad : ∀ value, Preserves bad (next value)) :
    RelatedUnless bad R (left >>= next) (right >>= next') := by
  intro before before' hbefore
  have hmiddle := hact before before' hbefore
  rw [outcome_bind, outcome_bind]
  generalize outcome left before = ended at hmiddle ⊢
  generalize outcome right before' = ended' at hmiddle ⊢
  obtain ⟨result, after⟩ := ended
  obtain ⟨result', after'⟩ := ended'
  rcases hmiddle with hwrong | ⟨hresult, hafter⟩
  · left
    cases result with
    | error fault => exact hwrong
    | ok value => exact hbad value after hwrong
  · obtain rfl : result = result' := hresult
    cases result with
    | error fault => exact .inr ⟨rfl, hafter⟩
    | ok value => exact hnext value after after' hafter

theorem RelatedUnless.tryCatch {handle : Fault → Act σ α}
    {handle' : Fault → Act τ α} (hact : RelatedUnless bad R left right)
    (hhandle : ∀ fault, Related R (handle fault) (handle' fault))
    (hbad : ∀ fault, Preserves bad (handle fault)) :
    RelatedUnless bad R (tryCatch left handle) (tryCatch right handle') := by
  intro before before' hbefore
  have hmiddle := hact before before' hbefore
  rw [outcome_tryCatch, outcome_tryCatch]
  generalize outcome left before = ended at hmiddle ⊢
  generalize outcome right before' = ended' at hmiddle ⊢
  rcases hmiddle with hwrong | ⟨hresult, hafter⟩
  · left
    rcases ended with ⟨fault | value, after⟩
    · exact hbad fault after hwrong
    · exact hwrong
  · exact .inr (related_orElse hhandle hresult hafter)

end RelatedUnless

end PipeShell.Act
