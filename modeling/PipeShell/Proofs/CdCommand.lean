import PipeShell.Proofs.Directories
import PipeShell.Proofs.DirectoryTree
import PipeShell.Proofs.Paths

namespace PipeShell

open Channel (Source Writer)

private theorem FileTree.contains_of_isDirectory {tree : FileTree} {path : String}
    (hdirectory : tree.isDirectory path = true) : tree.contains path = true := by
  obtain ⟨hzero, hsome, names, hwalk⟩ := isDirectory_iff.mp hdirectory
  rw [contains, locate, if_neg hsome, hzero, hwalk]
  rfl

namespace Builtin

/-- Where `cd` leads, unless it refuses to go there. -/
def destination (context : Context) (files : FileTree) : Option String :=
  if 1 < context.arguments.length || !context.canMove then none
  else (moveOf context).bind fun move =>
    if files.isDirectory move.target then some move.target else none

end Builtin

namespace Terminal

open Act

/-- A session that is where its terminal is. The directory is the one that the line
began in, or one that exists; both directories are written in full, and the terminal
has come from elsewhere. -/
structure Located (start : String) (session : Session Memory) : Prop where
  solid : session.machine.Solid
  agrees : session.directory = session.owner.directory
  normal : Path.Normal session.directory
  previous : ∀ path, session.previous = some path → Path.Normal path
  earlier : ∀ path, session.owner.previous = some path →
    Path.Normal path ∧ path ≠ session.owner.directory
  stands : session.directory = start ∨
    session.machine.files.isDirectory session.directory = true

variable {start : String} {session before after : Session Memory}
  {place : Whereabouts}
  {context : Context}

theorem Located.of_same (hlocated : Located start before)
    (hgrounded : before.machine.Grounded after.machine)
    (hdirectory : after.directory = before.directory)
    (hprevious : after.previous = before.previous)
    (hmemory : after.owner.whereabouts = before.owner.whereabouts) :
    Located start after where
  solid := (hgrounded hlocated.solid).2
  agrees := by
    rw [hdirectory, hlocated.agrees]
    exact (congrArg Whereabouts.directory hmemory).symm
  normal := hdirectory ▸ hlocated.normal
  previous := hprevious ▸ hlocated.previous
  earlier path hpath := by
    have hdirectory : after.owner.directory = before.owner.directory :=
      congrArg Whereabouts.directory hmemory
    have hprevious : after.owner.previous = before.owner.previous :=
      congrArg Whereabouts.previous hmemory
    rw [hdirectory]
    exact hlocated.earlier path (hprevious ▸ hpath)
  stands := by
    rw [hdirectory]
    exact hlocated.stands.imp_right (hgrounded hlocated.solid).1.isDirectory

def arrived (session : Session Memory) (path : String) : Session Memory :=
  { session with
    previous := some session.directory
    directory := path
    owner := session.owner.enter path }

theorem Located.moved (hlocated : Located start session) {path : String}
    (hnormal : Path.Normal path)
    (hdirectory : session.machine.files.isDirectory path = true) :
    Located start (arrived session path) where
  solid := hlocated.solid
  agrees := (Memory.directory_enter session.owner path).symm
  normal := hnormal
  previous := by
    rintro _ ⟨⟩
    exact hlocated.normal
  earlier := by
    unfold arrived Memory.enter
    split
    · exact hlocated.earlier
    · next hother =>
        rintro _ ⟨⟩
        exact ⟨hlocated.agrees ▸ hlocated.normal, Ne.symm hother⟩
  stands := .inr hdirectory

structure Stays (start : String) (place : Whereabouts) (session : Session Memory) :
    Prop where
  located : Located start session
  place : session.owner.whereabouts = place

theorem spared_stays : owner.Spared (Stays start place) where
  out before after hbefore hwrote :=
    have hmemory := congrArg Memory.whereabouts hwrote.owner
    ⟨hbefore.located.of_same (Machine.grounded_of_sessionWrote hwrote)
      hwrote.directory hwrote.previous hmemory, hmemory.trans hbefore.place⟩
  err session err machine hsession hwrote :=
    ⟨hsession.located.of_same (Machine.grounded_of_wrote hwrote) rfl rfl rfl,
      hsession.place⟩
  forgotten session hsession :=
    ⟨hsession.located.of_same (Machine.grounded_clearJournal _) rfl rfl rfl,
      hsession.place⟩
  cleared clear hclear session hsession := by
    cases hclear
    exact ⟨hsession.located.of_same (.refl _) rfl rfl rfl, hsession.place⟩
  deleted delete hdelete position session hsession := by
    cases hdelete
    have hmemory := whereabouts_deleteEntry session.owner position
    exact ⟨hsession.located.of_same (.refl _) rfl rfl hmemory,
      hmemory.trans hsession.place⟩

/-- After a command. The terminal is where it was, unless the command has moved
it. -/
structure Leaves (start : String) (place : Whereabouts) (moved : Prop)
    (session : Session Memory) : Prop where
  located : Located start session
  place : session.owner.whereabouts = place ∨ moved

theorem Stays.leaves (hstays : Stays start place session) (moved : Prop) :
    Leaves start place moved session :=
  ⟨hstays.located, .inl hstays.place⟩

/-- The command has been told of directories that are written in full. -/
structure Informed (context : Context) : Prop where
  home : Path.Normal context.home
  previous : ∀ path, context.previous = some path → Path.Normal path

private theorem Informed.target (hinformed : Informed context)
    {target : Builtin.Move} (hmove : Builtin.moveOf context = some target) :
    Path.Normal target.target := by
  unfold Builtin.moveOf at hmove
  cases harguments : context.arguments with
  | nil =>
      rw [harguments] at hmove
      rw [← Option.some.inj hmove]
      exact hinformed.home
  | cons argument rest =>
      rw [harguments] at hmove
      by_cases hback : argument = "-"
      · simp only [if_pos hback] at hmove
        split at hmove
        · cases hmove
        · cases hmove
        · next hprevious =>
            rw [← Option.some.inj hmove]
            exact hinformed.previous _ hprevious
      · simp only [if_neg hback, Option.some.injEq] at hmove
        rw [← hmove]
        dsimp only
        exact Path.normal_resolve argument context.directory context.home

section Refused

variable {inv : Session Memory → Prop}

theorem ensures_refusal (hinv : Session.StableForErrors inv) (message : String)
    {code : ExitCode} (hcode : code ≠ .success) :
    Ensures inv (do errorLine message; return code)
      (fun code after => code ≠ .success ∧ inv after) fun _ => inv := by
  have herror : Keeps inv Execution.anyhow (errorLine message) :=
    keeps_errorLine (fun _ _ _ => trivial) hinv message
  exact (herror.imp_faulty fun _ _ hafter => hafter.1).bind fun _ =>
    ensures_pure fun _ hafter => ⟨hcode, hafter⟩

private theorem ensures_move_refused (hinv : Session.StableForErrors inv)
    {target : Builtin.Move} (hbefore : inv before)
    (hdirectory : before.machine.files.isDirectory target.target = false) :
    Ensures (· = before) (Builtin.move owner target)
      (fun code after => code ≠ .success ∧ inv after) fun _ => inv := by
  have hrefusal (message : String) : Ensures (· = before) (Builtin.failing message)
      (fun code after => code ≠ .success ∧ inv after) fun _ => inv :=
    (ensures_refusal hinv message (by decide)).startingIn hbefore
  refine (ensures_files before).bind fun tree => ensures_each ?_
  rintro session ⟨rfl, rfl⟩
  split
  · exact hrefusal _
  · split
    · exact hrefusal _
    · next hthere => simp [hdirectory] at hthere

/-- Without a destination the command fails, and the terminal stays where it is. -/
theorem ensures_runCd_refused (hinv : Session.StableForErrors inv)
    (hbefore : inv before) (hnowhere : Builtin.destination context
      before.machine.files = none) :
    Ensures (· = before) (Builtin.runCd owner context)
      (fun code after => code ≠ .success ∧ inv after) fun _ => inv := by
  have hrefusal (message : String) {code : ExitCode} (hcode : code ≠ .success) :=
    (ensures_refusal hinv message hcode).startingIn hbefore
  unfold Builtin.runCd
  split
  · exact hrefusal _ (by decide)
  · next hfew =>
      split
      · exact hrefusal _ (by decide)
      · next hable =>
          split
          · exact hrefusal _ (by decide)
          · next target hmove =>
              refine ensures_move_refused hinv hbefore ?_
              simpa [Builtin.destination, hfew, hable, hmove] using hnowhere

end Refused

def printing (target : Builtin.Move) : Act Memory ExitCode := do
  if target.printed then writeLine target.target
  return .success

theorem outcome_move {target : Builtin.Move}
    (hdirectory : session.machine.files.isDirectory target.target = true) :
    outcome (Builtin.move owner target) session =
      outcome (printing target) (arrived session target.target) := by
  rw [Builtin.move, outcome_bind, outcome_files]
  dsimp only [andThen]
  rw [if_neg (by simp [FileTree.contains_of_isDirectory hdirectory]),
    if_neg (by simp [hdirectory])]
  rfl

private theorem arguments_of_printed {target : Builtin.Move}
    (hmove : Builtin.moveOf context = some target) (hprinted : target.printed = true)
    (hfew : ¬ 1 < context.arguments.length) : context.arguments = ["-"] := by
  unfold Builtin.moveOf at hmove
  cases harguments : context.arguments with
  | nil =>
      rw [harguments] at hmove
      cases hmove
      cases hprinted
  | cons argument rest =>
      rw [harguments] at hmove hfew
      have hlast : rest = [] := by
        rw [← List.length_eq_zero_iff]
        simp only [List.length_cons] at hfew
        omega
      by_cases hback : argument = "-"
      · rw [hback, hlast]
      · simp only [if_neg hback, Option.some.injEq] at hmove
        rw [← hmove] at hprinted
        cases hprinted

/-- With a destination the command moves there. Only the way back is printed. -/
theorem outcome_runCd {path : String}
    (hdestination : Builtin.destination context session.machine.files = some path) :
    ∃ target, Builtin.moveOf context = some target ∧
      (target.printed = true → context.arguments = ["-"]) ∧
      session.machine.files.isDirectory target.target = true ∧
      outcome (Builtin.runCd owner context) session =
        outcome (printing target) (arrived session target.target) := by
  unfold Builtin.destination at hdestination
  split at hdestination
  · cases hdestination
  · next hable =>
      obtain ⟨target, hmove, hthere⟩ := Option.bind_eq_some_iff.mp hdestination
      simp only [Bool.or_eq_true, decide_eq_true_eq, not_or] at hable
      split at hthere
      · next hdirectory =>
          refine ⟨target, hmove, fun hprinted => ?_, hdirectory, ?_⟩
          · exact arguments_of_printed hmove hprinted hable.1
          · rw [Builtin.runCd, if_neg hable.1, if_neg hable.2, hmove]
            exact outcome_move hdirectory
      · cases hthere

/-- Only a cancellation or a closed file keeps the directory from being printed. -/
theorem ended_printing (target : Builtin.Move) (session : Session Memory) :
    (outcome (printing target) session).1 = .ok .success ∨
      target.printed = true ∧ ∃ fault,
        (outcome (printing target) session).1 = .error fault ∧
        (session.cancelled = true ∨ session.out.Refuses session.machine fault) := by
  unfold printing
  cases target.printed with
  | false => exact .inl rfl
  | true =>
      simp only [if_true]
      rw [outcome_bind]
      cases hcancelled : session.cancelled with
      | true =>
          rw [writeLine, outcome_bind, outcome_check, hcancelled]
          exact .inr ⟨trivial, _, rfl, .inl rfl⟩
      | false =>
          rw [outcome_writeLine target.target hcancelled]
          cases hwrite : session.out.writeLine session.machine target.target with
          | ok written => exact .inl rfl
          | error fault =>
              exact .inr ⟨trivial, fault, rfl,
                .inr (Channel.Writer.writeLine_error hwrite)⟩

variable {moved : Prop}

private theorem ensures_runCd (hinformed : Informed context)
    (hstays : Stays start place before)
    (hmoved : (Builtin.destination context before.machine.files).isSome = true →
      moved) : Ensures (· = before) (Builtin.runCd owner context)
        (fun _ => Leaves start place moved) fun _ => Leaves start place moved := by
  cases hdestination : Builtin.destination context before.machine.files with
  | none =>
      have hrefused := ensures_runCd_refused spared_stays.err hstays hdestination
      exact hrefused.imp (fun _ hbefore => hbefore)
        (fun _ _ hafter => hafter.2.leaves moved) fun _ _ hafter =>
          hafter.leaves moved
  | some path =>
      obtain ⟨target, hmove, -, hdirectory, houtcome⟩ := outcome_runCd hdestination
      have hnormal := hinformed.target hmove
      have harrived : Stays start (place.enter target.target)
          (arrived before target.target) :=
        ⟨hstays.located.moved hnormal hdirectory,
          hstays.place ▸ whereabouts_enter before.owner target.target⟩
      have hwrite : Keeps (Stays start (place.enter target.target)) context.Ends
          (writeLine target.target) := keeps_writeLine spared_stays.out target.target
      have hprint : Keeps (Stays start (place.enter target.target)) context.Ends
          (printing target) := by
        unfold printing
        cases target.printed with
        | false => exact keeps_pure _
        | true => exact hwrite.bind fun _ => keeps_pure _
      rw [hdestination] at hmoved
      have hleaves (after : Session Memory)
          (hafter : Stays start (place.enter target.target) after) :
          Leaves start place moved after := ⟨hafter.located, .inr (hmoved rfl)⟩
      constructor
      rintro _ rfl
      rw [houtcome]
      exact (hprint.imp (fun _ hbefore => hbefore) (fun _ => hleaves)
        fun _ after hafter => hleaves after hafter.1).ended _ harrived

/-- A command that has moved the terminal is the one for that, and the directory that
it has moved to was there. -/
theorem ensures_command (hinformed : Informed context) {command : Instance}
    {builtin : Builtin} (hprogram : command.program = .builtin builtin)
    (hstays : Stays start place before)
    (hdirectory : before.directory = context.directory)
    (hmoved : builtin = .cd → Table.get? Instance.programSlot command.values = none →
      (Builtin.destination context before.machine.files).isSome = true → moved) :
    Ensures (· = before) (command.run owner context)
      (fun _ => Leaves start place moved)
      fun _ => Leaves start place moved := by
  unfold Instance.run
  cases hshown : Table.get? Instance.programSlot command.values with
  | some value =>
      rw [hprogram]
      refine ensures_throw ?_
      rintro _ rfl
      exact hstays.leaves moved
  | none =>
      rw [hprogram]
      by_cases hcd : builtin = .cd
      · subst hcd
        exact (ensures_runCd hinformed hstays (hmoved rfl hshown)).bind
          fun code => ensures_pure fun _ hafter => hafter
      · have hother := (Builtin.ensures_run_of_ne_cd spared_stays context command
          hcd).startingIn ⟨hstays, hdirectory⟩
        exact (hother.imp_faulty fun _ _ hafter => hafter.1.leaves moved).bind
          fun code => ensures_pure fun _ hafter => hafter.leaves moved

end Terminal

end PipeShell
