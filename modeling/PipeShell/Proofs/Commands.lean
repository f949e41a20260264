import PipeShell.Proofs.LinkedSessions

namespace PipeShell

open Channel (Source Cursor)

variable {σ τ : Type} {α : Type} {M : Machine → Machine → Prop}
  {N : Journal.Note → Journal.Note → Prop} {K : Place σ → Place τ → Prop}
    {owner : Owner σ}
  {owner' : Owner τ}

namespace Act

private theorem linked_files_bind (hfiles : Machine.SameFiles M)
    {next : FileTree → Act σ α} {next' : FileTree → Act τ α}
    (hnext : ∀ tree, Related (Session.Linked M K) (next tree) (next' tree)) :
    Related (Session.Linked M K) (files >>= next) (files >>= next') := by
  refine related_bind ?_ hnext
  intro before before' hbefore
  rw [outcome_files, outcome_files, hfiles _ _ hbefore.machine]
  exact ⟨rfl, hbefore⟩

private theorem linked_cancel : Related (Session.Linked M K) cancel cancel :=
  related_modify fun _ _ hbefore => { hbefore with cancelled := rfl }

private theorem linked_clearOutput :
    Related (Session.Linked M K) clearOutput clearOutput := by
  refine related_session_bind fun before before' hbefore => ?_
  rw [outcome_bind, outcome_bind, outcome_lift, outcome_lift, hbefore.out]
  cases before'.out.clear with
  | error fault => exact ⟨rfl, hbefore⟩
  | ok out => exact ⟨rfl, { hbefore with out := rfl }⟩

theorem linked_writeLines (hsteady : Machine.Steady M N) (lines : List String) :
    Related (Session.Linked M K) (writeLines lines) (writeLines lines) := by
  induction lines with
  | nil => exact related_pure _
  | cons line rest ih =>
      exact related_bind (linked_writeLine hsteady line) fun _ => ih

theorem linked_start (source : Source) :
    Related (Session.Linked M K) (start source) (start source) := by
  refine related_session_bind fun before before' hbefore => ?_
  rw [outcome_lift, outcome_lift, hbefore.cancelled]
  exact ⟨rfl, hbefore⟩

theorem linked_next (hfiles : Machine.SameFiles M) (cursor : Cursor) :
    Related (Session.Linked M K) (next cursor) (next cursor) := by
  refine related_session_bind fun before before' hbefore => ?_
  rw [outcome_lift, outcome_lift, hbefore.cancelled, hfiles _ _ hbefore.machine]
  exact ⟨rfl, hbefore⟩

section Fold

variable {step : α → String → Act σ α} {step' : α → String → Act τ α}

private theorem linked_foldLines (hfiles : Machine.SameFiles M)
    (hstep : ∀ value line,
      Related (Session.Linked M K) (step value line) (step' value line))
    (bound : Nat) (value : α) (cursor : Cursor) :
    Related (Session.Linked M K) (foldLines step bound value cursor)
      (foldLines step' bound value cursor) := by
  induction bound generalizing value cursor with
  | zero => exact related_throw _
  | succ bound ih =>
      refine related_bind (linked_next hfiles cursor) fun found => ?_
      cases found with
      | none => exact related_pure _
      | some found =>
          exact related_bind (hstep value found.1) fun value => ih value found.2

private theorem next_lines (line : String) (rest : List String) :
    (next (.lines (line :: rest)) : Act σ (Option (String × Cursor))) =
      check >>= fun _ => pure (some (line, .lines rest)) := by
  apply ext
  intro session
  rw [outcome_bind, outcome_check]
  change outcome (lift (Cursor.next session.cancelled session.machine.files _))
    session = _
  rw [outcome_lift, Cursor.next]
  cases session.cancelled <;> rfl

private theorem foldSource_empty (initial : α) :
    foldSource step initial .empty = check >>= fun _ => pure initial := by
  apply ext
  intro session
  rw [outcome_bind, outcome_check, foldSource, outcome_bind]
  change andThen _
    (outcome (lift (Cursor.start session.cancelled .empty)) session) = _
  rw [outcome_lift, Cursor.start]
  cases session.cancelled <;> rfl

theorem linked_foldLines_lines
    (hstep : ∀ value line,
      Related (Session.Linked M K) (step value line) (step' value line))
    (bound : Nat) (value : α) (items : List String) :
    Related (Session.Linked M K) (foldLines step bound value (.lines items))
      (foldLines step' bound value (.lines items)) := by
  induction bound generalizing value items with
  | zero => exact related_throw _
  | succ bound ih =>
      cases items with
      | nil => exact related_pure value
      | cons line rest =>
          rw [foldLines, foldLines, next_lines, next_lines, bind_assoc, bind_assoc]
          refine related_bind linked_check fun _ => ?_
          rw [pure_bind, pure_bind]
          exact related_bind (hstep value line) fun value => ih value rest

theorem linked_foldSource
    (hstep : ∀ value line,
      Related (Session.Linked M K) (step value line) (step' value line))
    (initial : α) {source : Source}
    (hsource : (∀ path, source ≠ .file path) ∨ Machine.SameFiles M) :
    Related (Session.Linked M K) (foldSource step initial source)
      (foldSource step' initial source) := by
  rcases hsource with hlisted | hfiles
  · cases source with
    | file path => exact absurd rfl (hlisted path)
    | empty =>
        rw [foldSource_empty, foldSource_empty]
        exact related_bind linked_check fun _ => related_pure _
    | lines items =>
        exact linked_foldLines_lines hstep (items.length + 1) initial items
  · exact related_bind (linked_start source) fun cursor =>
      linked_files_bind hfiles fun _ =>
        linked_foldLines hfiles hstep _ initial cursor

end Fold

theorem linked_eachLine {step : String → Act σ Unit} {step' : String → Act τ Unit}
    (hstep : ∀ line, Related (Session.Linked M K) (step line) (step' line))
    {source : Source}
    (hsource : (∀ path, source ≠ .file path) ∨ Machine.SameFiles M) :
    Related (Session.Linked M K) (eachLine step source) (eachLine step' source) :=
  linked_foldSource (fun _ line => hstep line) () hsource

theorem linked_readLines {source : Source}
    (hsource : (∀ path, source ≠ .file path) ∨ Machine.SameFiles M) :
    Related (Session.Linked M K) (readLines source) (readLines source) :=
  related_bind (linked_foldSource (fun _ _ => related_pure _) _ hsource) fun _ =>
    related_pure _

private theorem linked_eachOfFirst (hfiles : Machine.SameFiles M)
    {step : String → Act σ Unit} {step' : String → Act τ Unit}
    (hstep : ∀ line, Related (Session.Linked M K) (step line) (step' line))
    (count : Nat) (cursor : Cursor) :
    Related (Session.Linked M K) (eachOfFirst step count cursor)
      (eachOfFirst step' count cursor) := by
  induction count generalizing cursor with
  | zero => exact related_pure _
  | succ count ih =>
      refine related_bind (linked_next hfiles cursor) fun found => ?_
      cases found with
      | none => exact related_pure _
      | some found => exact related_bind (hstep found.1) fun _ => ih found.2

theorem linked_changeDirectory (howner : Owner.Linked K owner owner')
    (path : String) :
    Related (Session.Linked M K) (changeDirectory owner path)
      (changeDirectory owner' path) :=
  related_modify fun _ _ hbefore =>
    { hbefore with place := howner.moved hbefore.place path }

theorem linked_clearHistory (howner : Owner.Linked K owner owner') :
    Related (Session.Linked M K) (clearHistory owner) (clearHistory owner') := by
  have hoffered := howner.clearing
  unfold clearHistory
  cases hleft : owner.clearHistory <;> cases hright : owner'.clearHistory <;>
    rw [hleft, hright] at hoffered
  · exact related_throw _
  · cases hoffered
  · cases hoffered
  · exact related_modify fun _ _ hbefore =>
      { hbefore with place := howner.cleared hleft hright hbefore.place }

theorem linked_deleteEntry (howner : Owner.Linked K owner owner') (position : Int) :
    Related (Session.Linked M K) (deleteEntry owner position)
      (deleteEntry owner' position) := by
  have hoffered := howner.deleting
  unfold deleteEntry
  cases hleft : owner.deleteEntry <;> cases hright : owner'.deleteEntry <;>
    rw [hleft, hright] at hoffered
  · exact related_throw _
  · cases hoffered
  · cases hoffered
  · refine related_session_bind fun before before' hbefore => ?_
    obtain ⟨hdeleted, hplace⟩ := howner.deleted hleft hright hbefore.place position
    exact ⟨congrArg Except.ok hdeleted, { hbefore with place := hplace }⟩

private theorem linked_visibleRegistry :
    Related (Session.Linked M K) visibleRegistry visibleRegistry := by
  refine related_session_bind fun before before' hbefore => ?_
  rw [hbefore.view, hbefore.registry]
  exact ⟨rfl, hbefore⟩

private theorem linked_unregister (name : String) :
    Related (Session.Linked M K) (unregister name) (unregister name) := by
  refine related_session_bind fun before before' hbefore => ?_
  rw [hbefore.view]
  cases before'.view with
  | absent => exact ⟨rfl, hbefore⟩
  | shared =>
      simp only [hbefore.registry]
      exact ⟨rfl, { hbefore with registry := rfl, view := rfl }⟩
  | apart registry => exact ⟨rfl, { hbefore with view := rfl }⟩

end Act

namespace Builtin

open Act

/-- The command reads no file: neither is its input one nor is it given any. -/
def Fileless (context : Context) : Builtin → Prop
  | .cat | .head | .tail =>
      context.arguments = [] ∧ ∀ path, context.input ≠ .file path
  | .grep => ∀ path, context.input ≠ .file path
  | _ => True

theorem linked_failing (hsteady : Machine.Steady M N) (message : String) :
    Related (Session.Linked M K) (failing message) (failing message) :=
  related_bind (linked_errorLine hsteady message) fun _ => related_pure _

theorem linked_misused (hsteady : Machine.Steady M N) (message : String) :
    Related (Session.Linked M K) (misused message) (misused message) :=
  related_bind (linked_errorLine hsteady message) fun _ => related_pure _

theorem linked_fileSource (hsteady : Machine.Steady M N) (command : String)
    (context : Context) (path : String) :
    Related (Session.Linked M K) (fileSource command context path)
      (fileSource command context path) := by
  refine related_session_bind fun before before' hbefore => ?_
  have hreport (line : String) : Related (Session.Linked M K)
      (errorLine line >>= fun _ => pure none : Act σ (Option Source))
      (errorLine line >>= fun _ => pure none) :=
    related_bind (linked_errorLine hsteady line) fun _ => related_pure none
  rw [hsteady.contains hbefore.machine,
    hsteady.isDirectory hbefore.machine]
  split
  · exact hreport _ before before' hbefore
  · split
    · exact hreport _ before before' hbefore
    · exact ⟨rfl, hbefore⟩

private theorem linked_runEcho (hsteady : Machine.Steady M N) (context : Context)
    (noNewline : Bool) :
    Related (Session.Linked M K) (runEcho context noNewline)
      (runEcho context noNewline) := by
  unfold runEcho
  cases noNewline with
  | true => exact related_bind (linked_write hsteady _) fun _ => related_pure _
  | false => exact related_bind (linked_writeLine hsteady _) fun _ => related_pure _

private theorem linked_copyFiles (hsteady : Machine.Steady M N)
    (hfiles : Machine.SameFiles M) (context : Context) (paths : List String) :
    Related (Session.Linked M K) (copyFiles context paths)
      (copyFiles context paths) := by
  induction paths with
  | nil => exact related_pure _
  | cons path rest ih =>
      refine related_bind (linked_fileSource hsteady _ context path) fun found => ?_
      cases found with
      | none => exact related_pure _
      | some source =>
          exact related_bind (linked_eachLine (linked_writeLine hsteady)
            (.inr hfiles))
            fun _ => ih

private theorem linked_runCat (hsteady : Machine.Steady M N) (context : Context)
    (hfiles : Builtin.cat.Fileless context ∨ Machine.SameFiles M) :
    Related (Session.Linked M K) (runCat context) (runCat context) := by
  unfold runCat
  split
  · exact related_bind (linked_eachLine (linked_writeLine hsteady)
      (hfiles.imp_left And.right)) fun _ => related_pure _
  · next hgiven =>
      refine linked_copyFiles hsteady (hfiles.resolve_left fun hnone => hgiven ?_)
        context _
      rw [hnone.1, List.isEmpty_nil]

private theorem linked_grepStep (hsteady : Machine.Steady M N)
    (options : GrepOptions) (node : Pattern.Node) (count : Nat) (line : String) :
    Related (Session.Linked M K) (grepStep options node count line)
      (grepStep options node count line) := by
  unfold grepStep
  split
  · exact related_pure _
  · split
    · exact related_bind (linked_writeLine hsteady line) fun _ => related_pure _
    · exact related_pure _

private theorem linked_runGrep (hsteady : Machine.Steady M N) (context : Context)
    (hfiles : Builtin.grep.Fileless context ∨ Machine.SameFiles M)
    (options : GrepOptions) :
    Related (Session.Linked M K) (runGrep context options)
      (runGrep context options) := by
  unfold runGrep
  split
  · exact linked_misused hsteady _
  · split
    · exact linked_misused hsteady _
    · exact related_throw _
    · exact related_throw _
    · rename_i node _
      refine related_bind
        (linked_foldSource (linked_grepStep hsteady options node) 0 hfiles)
        fun count => ?_
      by_cases hcount : options.countOnly = true
      · simp only [if_pos hcount]
        exact related_bind (linked_writeLine hsteady _) fun _ => related_pure _
      · simp only [if_neg hcount]
        exact related_pure _

private theorem linked_windowFiles (hsteady : Machine.Steady M N)
    (hfiles : Machine.SameFiles M) (command : String)
    (select : List String → List String) (context : Context) (headings : Bool)
    (index : Nat) (paths : List String) :
    Related (Session.Linked M K)
      (windowFiles command select context headings index paths)
      (windowFiles command select context headings index paths) := by
  induction paths generalizing index with
  | nil => exact related_pure _
  | cons path rest ih =>
      have hlines : ∀ source, Related (Session.Linked M K)
          (readLines source >>= fun lines => writeLines (select lines) >>= fun _ =>
            windowFiles command select context headings (index + 1) rest)
          (readLines source >>= fun lines => writeLines (select lines) >>= fun _ =>
            windowFiles command select context headings (index + 1) rest) :=
              fun source =>
        related_bind (linked_readLines (.inr hfiles)) fun _ =>
          related_bind (linked_writeLines hsteady _) fun _ => ih (index + 1)
      refine related_bind (linked_fileSource hsteady _ context path) fun found => ?_
      cases found with
      | none => exact related_pure _
      | some source =>
          cases headings with
          | false => exact hlines source
          | true =>
              by_cases hindex : index ≠ 0
              · simp only [if_pos hindex, if_true]
                exact related_bind (linked_writeLine hsteady _) fun _ =>
                  related_bind (linked_writeLine hsteady _) fun _ => hlines source
              · simp only [if_neg hindex, if_true]
                exact related_bind (linked_writeLine hsteady _) fun _ =>
                  hlines source

private theorem linked_runWindow (hsteady : Machine.Steady M N) (command : String)
    (select : List String → List String) (context : Context)
    (hfiles : (context.arguments = [] ∧ ∀ path, context.input ≠ .file path) ∨
      Machine.SameFiles M) :
    Related (Session.Linked M K) (runWindow command select context)
      (runWindow command select context) := by
  unfold runWindow
  split
  · exact related_bind (linked_readLines (hfiles.imp_left And.right)) fun _ =>
      related_bind (linked_writeLines hsteady _) fun _ => related_pure _
  · next hgiven =>
      refine linked_windowFiles hsteady (hfiles.resolve_left fun hnone => hgiven ?_)
        command select context _ 0 _
      rw [hnone.1, List.isEmpty_nil]

private theorem linked_move (hsteady : Machine.Steady M N)
    (howner : Owner.Linked K owner owner') (target : Move) :
    Related (Session.Linked M K) (move owner target) (move owner' target) := by
  refine related_session_bind fun before before' hbefore => ?_
  rw [hsteady.contains hbefore.machine,
    hsteady.isDirectory hbefore.machine]
  split
  · exact linked_failing hsteady _ before before' hbefore
  · split
    · exact linked_failing hsteady _ before before' hbefore
    · refine related_bind (linked_changeDirectory howner _) (fun _ => ?_)
        before before' hbefore
      split
      · exact related_bind (linked_writeLine hsteady _) fun _ => related_pure _
      · exact related_pure _

private theorem linked_runCd (hsteady : Machine.Steady M N)
    (howner : Owner.Linked K owner owner') (context : Context) :
    Related (Session.Linked M K) (runCd owner context) (runCd owner' context) := by
  unfold runCd
  split
  · exact linked_misused hsteady _
  · split
    · exact linked_failing hsteady _
    · split
      · exact linked_failing hsteady _
      · exact linked_move hsteady howner _

private theorem linked_runHistory (hsteady : Machine.Steady M N)
    (howner : Owner.Linked K owner owner') (context : Context)
    (options : HistoryOptions) :
    Related (Session.Linked M K) (runHistory owner context options)
      (runHistory owner' context options) := by
  have hclearing : owner.clearHistory.isNone = owner'.clearHistory.isNone := by
    rw [← Option.not_isSome, ← Option.not_isSome, howner.clearing]
  have hdeleting : owner.deleteEntry.isNone = owner'.deleteEntry.isNone := by
    rw [← Option.not_isSome, ← Option.not_isSome, howner.deleting]
  unfold runHistory
  rw [hclearing, hdeleting]
  split
  · split
    · exact linked_failing hsteady _
    · exact related_bind (linked_clearHistory howner) fun _ => related_pure _
  · split
    · split
      · exact linked_failing hsteady _
      · split
        · exact linked_failing hsteady _
        · exact related_bind (linked_deleteEntry howner _) fun _ => related_pure _
    · exact related_bind (linked_writeLines hsteady _) fun _ => related_pure _

private theorem linked_helpRegistry (tied : Bool) :
    Related (Session.Linked M K) (helpRegistry tied) (helpRegistry tied) := by
  refine related_session_bind fun before before' hbefore => ?_
  rw [hbefore.registry]
  refine related_bind linked_visibleRegistry (fun found => ?_) before before' hbefore
  split
  · exact related_pure _
  · split
    · exact related_pure _
    · exact related_pure _

private theorem linked_runHelp (hsteady : Machine.Steady M N) (tied : Bool)
    (context : Context) :
    Related (Session.Linked M K) (runHelp tied context) (runHelp tied context) := by
  refine related_bind (linked_helpRegistry tied) fun found => ?_
  split
  · exact linked_failing hsteady _
  · split
    · exact related_bind (linked_writeLines hsteady _) fun _ => related_pure _
    · split
      · exact linked_misused hsteady _
      · exact related_bind (linked_writeLines hsteady _) fun _ => related_pure _

private theorem linked_runLog (hsteady : Machine.Steady M N)
    (hjournal : Machine.Recorded M) (options : LogOptions) :
    Related (Session.Linked M K) (runLog options) (runLog options) := by
  refine related_session_bind fun before before' hbefore => ?_
  rw [hjournal.journal hbefore.machine]
  split
  · exact linked_failing hsteady _ before before' hbefore
  · split
    · refine ⟨rfl, { hbefore with machine := hjournal.clearJournal hbefore.machine }⟩
    · refine related_session_bind (fun before before' hbefore => ?_) before
        before' hbefore
      rw [Machine.journalEntries, hjournal.journal hbefore.machine]
      refine related_bind (related_lift _) (fun entries => ?_) before before' hbefore
      exact related_bind (linked_writeLines hsteady _) fun _ => related_pure _

/-- Every command but the one that shows the journal, and that one too if the
journals are the same. -/
theorem linked_run (hsteady : Machine.Steady M N)
    (howner : Owner.Linked K owner owner') {builtin : Builtin}
    (hlog : builtin = .log → Machine.Recorded M) {context : Context}
    (hfiles : builtin.Fileless context ∨ Machine.SameFiles M) (command : Instance) :
    Related (Session.Linked M K) (run owner context command builtin)
      (run owner' context command builtin) := by
  cases builtin with
  | echo => exact linked_runEcho hsteady context _
  | cat => exact linked_runCat hsteady context hfiles
  | grep => exact linked_runGrep hsteady context hfiles _
  | head | tail => exact linked_runWindow hsteady _ _ context hfiles
  | pwd => exact related_bind (linked_writeLine hsteady _) fun _ => related_pure _
  | cd => exact linked_runCd hsteady howner context
  | history => exact linked_runHistory hsteady howner context _
  | help tied => exact linked_runHelp hsteady tied context
  | log => exact linked_runLog hsteady (hlog rfl) _

end Builtin

namespace Action

open Act

private theorem linked_perform (hseen : Machine.Seen M N)
    (howner : Owner.Linked K owner owner') (context : Context) (action : Action) :
    Related (Session.Linked M K) (action.perform owner context)
      (action.perform owner' context) := by
  have hdone : ∀ {left : Act σ Unit} {right : Act τ Unit},
      Related (Session.Linked M K) left right →
        Related (Session.Linked M K) (left >>= fun _ => pure (none : Option Status))
          (right >>= fun _ => pure none) :=
    fun hact => related_bind hact fun _ => related_pure _
  have hline := linked_writeLine (M := M) (K := K) hseen.toSteady
  cases action with
  | line text => exact hdone (hline text)
  | write text => exact hdone (linked_write hseen.toSteady text)
  | errorLine text => exact hdone (linked_errorLine hseen.toSteady text)
  | arguments => exact hdone (linked_writeLines hseen.toSteady _)
  | copy mark =>
      exact hdone (linked_eachLine (fun line => hline _) (.inr hseen.files))
  | take most =>
      exact related_bind (linked_start _) fun cursor =>
        hdone (linked_eachOfFirst hseen.files hline _ cursor)
  | count =>
      exact related_bind (linked_readLines (.inr hseen.files)) fun lines =>
        hdone (hline _)
  | directories => exact hdone (linked_writeLines hseen.toSteady _)
  | changeDirectory path =>
      rw [perform, perform]
      cases context.canMove with
      | true => exact hdone (linked_changeDirectory howner path)
      | false =>
          exact related_bind (related_throw _) fun _ =>
            hdone (linked_changeDirectory howner path)
  | resolve path => exact hdone (hline _)
  | history => exact hdone (linked_writeLines hseen.toSteady _)
  | clearHistory => exact hdone (linked_clearHistory howner)
  | deleteEntry position =>
      exact related_bind (linked_deleteEntry howner position) fun _ =>
        hdone (hline _)
  | unregister name =>
      exact related_bind (linked_unregister name) fun _ => hdone (hline _)
  | clear => exact hdone linked_clearOutput
  | cancel => exact hdone linked_cancel
  | check => exact hdone linked_check
  | interrupt =>
      refine related_bind linked_cancel fun _ => hdone ?_
      exact related_modify fun _ _ hbefore =>
        { hbefore with machine := hseen.print hbefore.machine _ }
  | failWith text =>
      exact related_bind (linked_reportLine hseen.toSteady text) fun _ =>
        related_pure _
  | finish value => exact related_pure _
  | raise fault => exact related_throw _

private theorem linked_performAll (hseen : Machine.Seen M N)
    (howner : Owner.Linked K owner owner') (context : Context)
    (actions : List Action) :
    Related (Session.Linked M K) (performAll owner context actions)
      (performAll owner' context actions) := by
  induction actions with
  | nil => exact related_pure _
  | cons action rest ih =>
      refine related_bind (linked_perform hseen howner context action) fun ended =>
        ?_
      cases ended with
      | none => exact ih
      | some status => exact related_pure _

end Action

theorem Instance.linked_run_builtin (hsteady : Machine.Steady M N)
    (howner : Owner.Linked K owner owner') {builtin : Builtin} (command : Instance)
    (hprogram : command.program = .builtin builtin)
    (hlog : builtin = .log → Machine.Recorded M) {context : Context}
    (hfiles : builtin.Fileless context ∨ Machine.SameFiles M) :
    Act.Related (Session.Linked M K) (command.run owner context)
      (command.run owner' context) := by
  unfold Instance.run
  rw [hprogram]
  cases Table.get? programSlot command.values with
  | some value => exact Act.related_throw _
  | none =>
      exact Act.related_bind (Builtin.linked_run hsteady howner hlog hfiles command)
        fun _ => Act.related_pure _

theorem Instance.linked_run (hseen : Machine.Seen M N)
    (howner : Owner.Linked K owner owner') (context : Context) (command : Instance)
    (hlog : command.program = .builtin .log → Machine.Recorded M) :
    Act.Related (Session.Linked M K) (command.run owner context)
      (command.run owner' context) := by
  cases hprogram : command.program with
  | builtin builtin =>
      exact command.linked_run_builtin hseen.toSteady howner hprogram
        (fun h => hlog (h ▸ hprogram)) (.inr hseen.files)
  | actions steps =>
      unfold Instance.run
      rw [hprogram]
      cases Table.get? programSlot command.values with
      | some value => exact Act.related_throw _
      | none => exact Action.linked_performAll hseen howner context steps

namespace Execution

open Act

private theorem linked_noteAll (hsteady : Machine.Steady M N)
    (notes : List Journal.Note) :
    Related (Session.Linked M K) (onMachine fun machine => machine.noteAll notes)
      (onMachine fun machine => machine.noteAll notes) := by
  refine related_modify fun before before' hbefore => { hbefore with machine := ?_ }
  have hmachines : ∀ {left right}, M left right →
      M (left.noteAll notes) (right.noteAll notes) := by
    induction notes with
    | nil => exact fun hmachine => hmachine
    | cons note rest ih =>
        exact fun hmachine => ih (hsteady.note hmachine (hsteady.same note))
  exact hmachines hbefore.machine

private theorem linked_parse (hsteady : Machine.Steady M N) (text : String) :
    Related (Session.Linked M K) (parse text) (parse text) := by
  unfold parse
  split
  · exact related_pure _
  · split
    · exact related_throw _
    · refine related_bind (linked_note hsteady (hsteady.same _)) fun _ => ?_
      split
      · exact related_throw _
      · exact related_pure _
      · exact related_bind (linked_note hsteady (hsteady.same _)) fun _ =>
          related_pure _

theorem linked_interpretWith (hsteady : Machine.Steady M N)
    (howner : Owner.Linked K owner owner') {body : Body σ} {body' : Body τ}
    (hbody : ∀ bound context,
      Related (Session.Linked M K) (body bound context) (body' bound context))
    (parsers : Parsers) (home : String) (input : Source) (text : String) :
    Related (Session.Linked M K) (interpretWith owner body parsers home input text)
      (interpretWith owner' body' parsers home input text) := by
  refine related_bind (linked_parse hsteady text) fun parsed => ?_
  cases parsed with
  | none => exact related_pure _
  | some pipeline =>
      refine related_session_bind fun before before' hbefore => ?_
      rw [hbefore.registry]
      refine related_bind (linked_noteAll hsteady _) (fun _ => ?_) before
        before' hbefore
      refine related_bind (related_lift _) fun bound => ?_
      exact linked_sameStages hsteady howner (fun bound _ => hbody bound) 0 input

end Execution

end PipeShell
