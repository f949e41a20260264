import PipeShell.Program.Run
import PipeShell.Proofs.BuiltinBinding
import PipeShell.Proofs.Postconditions

namespace PipeShell

open Channel (Source Writer)

variable {σ : Type} {owner : Owner σ} {inv : Session σ → Prop} {context : Context}

namespace Act

variable {α : Type} {faulty : Fault → Session σ → Prop}

theorem keeps_session : Keeps inv faulty (session : Act σ (Session σ)) :=
  ⟨fun _ hbefore => hbefore⟩

theorem keeps_files : Keeps inv faulty (files : Act σ FileTree) :=
  ⟨fun _ hbefore => hbefore⟩

theorem keeps_throw {fault : Fault} (hfault : ∀ session, faulty fault session) :
    Keeps inv faulty (throw fault : Act σ α) :=
  ensures_throw fun _ hbefore => ⟨hbefore, hfault _⟩

end Act

namespace Journal

private theorem Level.ofName_error {name : String} {fault : Fault}
    (hname : Level.ofName name = .error fault) :
    ∃ message, fault = .badValue message := by
  unfold Level.ofName at hname
  split at hname
  · cases hname
  · cases hname
    exact ⟨_, rfl⟩

private theorem atLeast_error {level : Option String} {entries : List Entry}
    {fault : Fault} (hselect : atLeast level entries = .error fault) :
    ∃ message, fault = .badValue message := by
  unfold atLeast at hselect
  split at hselect
  · cases hselect
  · cases hselect
  · next name _ =>
      cases hname : Level.ofName name with
      | error cause =>
          rw [hname] at hselect
          cases hselect
          exact Level.ofName_error hname
      | ok least =>
          rw [hname] at hselect
          cases hlevels : entries.mapM fun entry => Level.ofName entry.label with
          | error cause =>
              obtain ⟨entry, -, hentry⟩ := mapM_error hlevels
              have hsame : cause = fault := by
                simpa [bind, Except.bind, hlevels] using hselect
              exact hsame ▸ Level.ofName_error hentry
          | ok levels =>
              simp [bind, Except.bind, hlevels, pure, Except.pure] at hselect

end Journal

private theorem Machine.journalEntries_error {machine : Machine}
    {level subsystem : Option String} {limit : Int} {fault : Fault}
    (hentries : machine.journalEntries level subsystem limit = .error fault) :
    ∃ message, fault = .badValue message := by
  unfold journalEntries at hentries
  split at hentries
  · cases hentries
  · next journal _ =>
      unfold Journal.select at hentries
      cases hlevel : Journal.atLeast level journal.entries with
      | error cause =>
          rw [hlevel] at hentries
          cases hentries
          exact Journal.atLeast_error hlevel
      | ok chosen =>
          rw [hlevel] at hentries
          cases hentries

structure Owner.Lasting (owner : Owner σ) (inv : Session σ → Prop) : Prop where
  out : Session.Stable inv
  err : Session.StableForErrors inv
  machine : ∀ session machine, inv session →
    machine.outputs = session.machine.outputs →
    inv { session with machine }
  moved : ∀ session path, inv session →
    inv { session with
      previous := some session.directory
      directory := path
      owner := owner.directoryChanged path session.owner }
  cleared : ∀ clear, owner.clearHistory = some clear → ∀ session, inv session →
    inv { session with owner := clear session.owner }
  deleted : ∀ delete, owner.deleteEntry = some delete → ∀ position session,
    inv session →
    inv { session with owner := (delete position session.owner).2 }

/-- An invariant that no command disturbs as long as it stays where it is. -/
structure Owner.Spared (owner : Owner σ) (inv : Session σ → Prop) : Prop where
  out : Session.Stable inv
  err : Session.StableForErrors inv
  forgotten : ∀ session, inv session →
    inv { session with machine := session.machine.clearJournal }
  cleared : ∀ clear, owner.clearHistory = some clear → ∀ session, inv session →
    inv { session with owner := clear session.owner }
  deleted : ∀ delete, owner.deleteEntry = some delete → ∀ position session,
    inv session →
    inv { session with owner := (delete position session.owner).2 }

private theorem Owner.Lasting.spared (hlasting : owner.Lasting inv) :
    owner.Spared inv where
  out := hlasting.out
  err := hlasting.err
  forgotten session hsession := hlasting.machine session _ hsession rfl
  cleared := hlasting.cleared
  deleted := hlasting.deleted

private theorem Owner.Spared.steady (hspared : owner.Spared inv)
    (context : Context) :
    context.Steady fun session => inv session ∧
      session.directory = context.directory where
  out _ _ hbefore hwrote :=
    ⟨hspared.out _ _ hbefore.1 hwrote, hwrote.directory.trans hbefore.2⟩
  err _ _ _ hbefore hwrote := ⟨hspared.err _ _ _ hbefore.1 hwrote, hbefore.2⟩
  directory _ hsession := hsession.2

namespace Builtin

open Act

theorem keeps_failing (herr : Session.StableForErrors inv) (message : String) :
    Keeps inv context.Ends (failing message) :=
  (keeps_errorLine Context.ends_of_halts herr message).bind fun _ => keeps_pure _

theorem keeps_misused (herr : Session.StableForErrors inv) (message : String) :
    Keeps inv context.Ends (misused message) :=
  (keeps_errorLine Context.ends_of_halts herr message).bind fun _ => keeps_pure _

theorem ensures_fileSource (hsteady : context.Steady inv) (command : String)
    {path : String} (hpath : path ∈ context.arguments) :
    Ensures inv (fileSource command context path)
      (fun found after => inv after ∧ ∀ source, found = some source →
        context.Offers source)
      fun fault after => inv after ∧ context.Ends fault after := by
  have hmissing : ∀ message, Ensures inv
      (errorLine message >>= fun _ =>
        pure (none : Option Source) : Act σ (Option Source))
      (fun found after => inv after ∧ ∀ source, found = some source →
        context.Offers source)
      (fun fault after => inv after ∧ context.Ends fault after) := by
    intro message
    refine (keeps_errorLine Context.ends_of_halts hsteady.err message).andThen
      fun _ => ?_
    refine ensures_pure fun _ hbefore => ⟨hbefore, ?_⟩
    intro source hsource
    cases hsource
  unfold fileSource
  refine keeps_files.andThen fun tree => ?_
  split
  · exact hmissing _
  · split
    · exact hmissing _
    · refine ensures_pure fun _ hbefore => ⟨hbefore, ?_⟩
      intro source hsource resolved hresolved
      have hsame : context.resolve path = resolved := by
        rw [← Option.some.inj hsource] at hresolved
        exact Option.some.inj hresolved
      rw [← hsame]
      exact List.mem_append_right _ (List.mem_map_of_mem hpath)

private theorem keeps_runEcho (hsteady : context.Steady inv) (noNewline : Bool) :
    Keeps inv context.Ends (runEcho context noNewline) := by
  unfold runEcho
  cases noNewline with
  | true => exact (keeps_write hsteady.out _).bind fun _ => keeps_pure _
  | false => exact (keeps_writeLine hsteady.out _).bind fun _ => keeps_pure _

theorem keeps_copyLines (hsteady : context.Steady inv) {source : Source}
    (hsource : context.Offers source) :
    Keeps inv context.Ends (eachLine writeLine source) :=
  keeps_eachLine (fun origin => keeps_writeLine (Session.stable_wrote origin))
    hsteady hsource

private theorem keeps_copyFiles (hsteady : context.Steady inv) {paths : List String}
    (hpaths : ∀ path ∈ paths, path ∈ context.arguments) :
    Keeps inv context.Ends (copyFiles context paths) := by
  induction paths with
  | nil => exact keeps_pure _
  | cons path rest ih =>
      obtain ⟨hpath, hrest⟩ := List.forall_mem_cons.mp hpaths
      rw [copyFiles]
      refine (ensures_fileSource hsteady "cat" hpath).bind fun found =>
        ensures_each fun before ⟨hbefore, hsource⟩ => Ensures.startingIn ?_ hbefore
      cases found with
      | none => exact keeps_pure _
      | some source =>
          exact (keeps_copyLines hsteady (hsource source rfl)).bind fun _ => ih hrest

private theorem keeps_runCat (hsteady : context.Steady inv) :
    Keeps inv context.Ends (runCat context) := by
  unfold runCat
  split
  · exact (keeps_copyLines hsteady context.offers_input).bind fun _ => keeps_pure _
  · exact keeps_copyFiles hsteady fun _ hpath => hpath

private theorem keeps_grepStep (hstable : Session.Stable inv) (options : GrepOptions)
    (node : Pattern.Node) (count : Nat) (line : String) :
    Keeps inv context.Ends (grepStep options node count line) := by
  unfold grepStep
  split
  · exact keeps_pure _
  · split
    · exact (keeps_writeLine hstable line).bind fun _ => keeps_pure _
    · exact keeps_pure _

private theorem keeps_runGrep (hsteady : context.Steady inv)
    (options : GrepOptions) :
    Keeps inv context.Ends (runGrep context options) := by
  unfold runGrep
  split
  · exact keeps_misused hsteady.err _
  · split
    · exact keeps_misused hsteady.err _
    · exact keeps_throw fun _ => trivial
    · exact keeps_throw fun _ => trivial
    · next node _ =>
        refine Keeps.bind (keeps_foldSource
          (fun origin => keeps_grepStep (Session.stable_wrote origin) options node)
            hsteady
          context.offers_input 0) fun count => ?_
        by_cases hcount : options.countOnly = true
        · simp only [if_pos hcount]
          exact (keeps_writeLine hsteady.out _).bind fun _ => keeps_pure _
        · simp only [if_neg hcount]
          exact keeps_pure _

private theorem keeps_windowFiles (hsteady : context.Steady inv) (command : String)
    (select : List String → List String) (headings : Bool) (index : Nat)
    {paths : List String} (hpaths : ∀ path ∈ paths, path ∈ context.arguments) :
    Keeps inv context.Ends (windowFiles command select context headings index
      paths) := by
  induction paths generalizing index with
  | nil => exact keeps_pure _
  | cons path rest ih =>
      obtain ⟨hpath, hrest⟩ := List.forall_mem_cons.mp hpaths
      rw [windowFiles]
      refine (ensures_fileSource hsteady command hpath).bind fun found =>
        ensures_each fun before ⟨hbefore, hsource⟩ => Ensures.startingIn ?_ hbefore
      cases found with
      | none => exact keeps_pure _
      | some source =>
          have hlines : Keeps inv context.Ends
              (readLines source >>= fun lines =>
                writeLines (select lines) >>= fun _ =>
                windowFiles command select context headings (index + 1) rest) :=
            (keeps_readLines hsteady (hsource source rfl)).bind fun lines =>
              (keeps_writeLines hsteady.out _).bind fun _ => ih (index + 1) hrest
          have hheading :=
            (keeps_writeLine hsteady.out ("==> " ++ path ++ " <==")).bind fun _ =>
              hlines
          cases headings with
          | false => exact hlines
          | true =>
              by_cases hindex : index ≠ 0
              · simp only [if_pos hindex, if_true]
                exact (keeps_writeLine hsteady.out _).bind fun _ => hheading
              · simp only [if_neg hindex, if_true]
                exact hheading

private theorem keeps_runWindow (hsteady : context.Steady inv) (command : String)
    (select : List String → List String) :
    Keeps inv context.Ends (runWindow command select context) := by
  unfold runWindow
  split
  · exact (keeps_readLines hsteady context.offers_input).bind fun _ =>
      (keeps_writeLines hsteady.out _).bind fun _ => keeps_pure _
  · exact keeps_windowFiles hsteady command select _ 0 fun _ hpath => hpath

private theorem keeps_move (hlasting : owner.Lasting inv) (target : Move) :
    Keeps inv context.Ends (move owner target) := by
  refine keeps_files.bind fun tree => ?_
  split
  · exact keeps_failing hlasting.err _
  · split
    · exact keeps_failing hlasting.err _
    · refine Keeps.bind (ensures_modify fun before hbefore =>
        hlasting.moved before _ hbefore)
        fun _ => ?_
      split
      · exact (keeps_writeLine hlasting.out _).bind fun _ => keeps_pure _
      · exact keeps_pure _

private theorem keeps_runCd (hlasting : owner.Lasting inv) :
    Keeps inv context.Ends (runCd owner context) := by
  unfold runCd
  split
  · exact keeps_misused hlasting.err _
  · split
    · exact keeps_failing hlasting.err _
    · split
      · exact keeps_failing hlasting.err _
      · exact keeps_move hlasting _

private theorem keeps_clearHistory (hspared : owner.Spared inv) :
    Keeps inv context.Ends (clearHistory owner) := by
  unfold clearHistory
  split
  · exact keeps_throw fun _ => trivial
  · next clear hclear =>
      exact ensures_modify fun before hbefore =>
        hspared.cleared clear hclear before hbefore

private theorem keeps_deleteEntry (hspared : owner.Spared inv) (position : Int) :
    Keeps inv context.Ends (deleteEntry owner position) := by
  unfold deleteEntry
  split
  · exact keeps_throw fun _ => trivial
  · next delete hdelete =>
      exact ⟨fun before hbefore =>
        hspared.deleted delete hdelete position before hbefore⟩

private theorem keeps_runHistory (hspared : owner.Spared inv)
    (options : HistoryOptions) :
    Keeps inv context.Ends (runHistory owner context options) := by
  unfold runHistory
  split
  · split
    · exact keeps_failing hspared.err _
    · exact (keeps_clearHistory hspared).bind fun _ => keeps_pure _
  · split
    · split
      · exact keeps_failing hspared.err _
      · split
        · exact keeps_failing hspared.err _
        · exact (keeps_deleteEntry hspared _).bind fun _ => keeps_pure _
    · exact (keeps_writeLines hspared.out _).bind fun _ => keeps_pure _

private theorem keeps_helpRegistry (tied : Bool) :
    Keeps inv context.Ends (helpRegistry tied : Act σ _) := by
  refine keeps_session.bind fun seen =>
    Keeps.bind (keeps_session.bind fun _ => keeps_pure _) ?_
  rintro (_ | registry)
  · exact keeps_pure _
  · simp only
    split
    · exact keeps_pure _
    · exact keeps_pure _

private theorem keeps_runHelp (hsteady : context.Steady inv) (tied : Bool) :
    Keeps inv context.Ends (runHelp tied context) := by
  refine (keeps_helpRegistry tied).bind fun found => ?_
  split
  · exact keeps_failing hsteady.err _
  · split
    · exact (keeps_writeLines hsteady.out _).bind fun _ => keeps_pure _
    · split
      · exact keeps_misused hsteady.err _
      · exact (keeps_writeLines hsteady.out _).bind fun _ => keeps_pure _

private theorem keeps_runLog (hspared : owner.Spared inv) (options : LogOptions) :
    Keeps inv context.Ends (runLog options) := by
  refine keeps_session.bind fun seen => ?_
  split
  · exact keeps_failing hspared.err _
  · split
    · refine Keeps.bind (ensures_modify fun before hbefore => ?_) fun _ =>
        keeps_pure _
      exact hspared.forgotten before hbefore
    · refine keeps_session.bind fun seen =>
        Keeps.bind (ensures_lift ?_ ?_) fun entries => ?_
      · exact fun _ _ _ hbefore => hbefore
      · intro fault hfault before hbefore
        obtain ⟨message, rfl⟩ := Machine.journalEntries_error hfault
        exact ⟨hbefore, trivial⟩
      · exact (keeps_writeLines hspared.out _).bind fun _ => keeps_pure _

/-- Only one command leaves its directory. -/
theorem ensures_run_of_ne_cd (hspared : owner.Spared inv) (context : Context)
    (command : Instance) {builtin : Builtin} (hother : builtin ≠ .cd) :
    Ensures (fun session => inv session ∧ session.directory = context.directory)
      (run owner context command builtin) (fun _ => inv)
      fun fault after => inv after ∧ context.Ends fault after := by
  -- Commands that read files stay in the directory that they are told; the others
  -- need not.
  have hsteady := hspared.steady context
  have hreading : ∀ {act : Act σ ExitCode},
      Keeps (fun session => inv session ∧ session.directory = context.directory)
        context.Ends act →
        Ensures (fun session => inv session ∧ session.directory = context.directory)
          act
          (fun _ => inv) fun fault after => inv after ∧ context.Ends fault after :=
    fun hact => hact.imp (fun _ hbefore => hbefore) (fun _ _ hafter => hafter.1)
      fun _ _ hafter => ⟨hafter.1.1, hafter.2⟩
  have hacting : ∀ {act : Act σ ExitCode}, Keeps inv context.Ends act →
        Ensures (fun session => inv session ∧ session.directory = context.directory)
          act
          (fun _ => inv) fun fault after => inv after ∧ context.Ends fault after :=
    fun hact => Ensures.imp_pre hact fun _ hbefore => hbefore.1
  cases builtin with
  | echo => exact hreading (keeps_runEcho hsteady _)
  | cat => exact hreading (keeps_runCat hsteady)
  | grep => exact hreading (keeps_runGrep hsteady _)
  | head | tail => exact hreading (keeps_runWindow hsteady _ _)
  | pwd =>
      exact hreading ((keeps_writeLine hsteady.out _).bind fun _ => keeps_pure _)
  | cd => exact absurd rfl hother
  | history => exact hacting (keeps_runHistory hspared _)
  | help tied => exact hreading (keeps_runHelp hsteady tied)
  | log => exact hacting (keeps_runLog hspared _)

private theorem ensures_run (hlasting : owner.Lasting inv) (context : Context)
    (command : Instance) (builtin : Builtin) :
    Ensures (fun session => inv session ∧ session.directory = context.directory)
      (run owner context command builtin) (fun _ => inv)
      fun fault after => inv after ∧ context.Ends fault after := by
  by_cases hcd : builtin = .cd
  · subst hcd
    exact Ensures.imp_pre (keeps_runCd hlasting) fun _ hbefore => hbefore.1
  · exact ensures_run_of_ne_cd hlasting.spared context command hcd

end Builtin

theorem Instance.ensures_run (hlasting : owner.Lasting inv) (context : Context)
    {command : Instance} {builtin : Builtin}
    (hprogram : command.program = .builtin builtin) :
    Act.Ensures (fun session => inv session ∧ session.directory = context.directory)
      (do Act.lift (← command.run owner context).exitCode) (fun _ => inv)
      fun fault after => inv after ∧ context.Ends fault after := by
  unfold Instance.run
  rw [hprogram]
  cases Table.get? programSlot command.values with
  | some value => exact Act.ensures_throw fun _ hbefore => ⟨hbefore.1, trivial⟩
  | none =>
      simp only [bind_assoc, pure_bind]
      exact (Builtin.ensures_run hlasting context command builtin).bind fun code =>
        Act.ensures_pure fun _ hbefore => hbefore

end PipeShell
