import PipeShell.Proofs.Action
import PipeShell.Proofs.FileReaders
import PipeShell.Proofs.Files

/-! What actions ensure: where they leave a session, and which faults they can end
in. Actions that only write change nothing of a session but its output and what
stands behind it. -/

namespace PipeShell

open Channel (Source Writer Cursor Reading)

variable {σ α β : Type}

namespace Act

def Ended (post : α → Session σ → Prop) (faulty : Fault → Session σ → Prop) :
    Except Fault α × Session σ → Prop
  | (.ok value, after) => post value after
  | (.error fault, after) => faulty fault after

/-- From a session as required the action comes to a value, or to a fault, as
stated. -/
structure Ensures (pre : Session σ → Prop) (act : Act σ α)
    (post : α → Session σ → Prop) (faulty : Fault → Session σ → Prop) : Prop where
  ended : ∀ before, pre before → Ended post faulty (outcome act before)

section Ensures

variable {pre pre' : Session σ → Prop} {act : Act σ α} {post post' : α →
  Session σ → Prop}
  {faulty faulty' : Fault → Session σ → Prop}

theorem ensures_pure {value : α} (hpre : ∀ before, pre before → post value before) :
    Ensures pre (pure value) post faulty :=
  ⟨hpre⟩

theorem ensures_throw {fault : Fault}
    (hpre : ∀ before, pre before → faulty fault before) :
    Ensures pre (throw fault : Act σ α) post faulty :=
  ⟨hpre⟩

theorem ensures_modify {change : Session σ → Session σ}
    {post : PUnit → Session σ → Prop}
    (hpre : ∀ before, pre before → post () (change before)) :
    Ensures pre (modify change : Act σ PUnit) post faulty :=
  ⟨hpre⟩

theorem Ensures.bind {next : α → Act σ β} {last : β → Session σ → Prop}
    (hact : Ensures pre act post faulty)
    (hnext : ∀ value, Ensures (post value) (next value) last faulty) :
    Ensures pre (act >>= next) last faulty := by
  refine ⟨fun before hbefore => ?_⟩
  have hafter := hact.ended before hbefore
  rw [outcome_bind]
  generalize outcome act before = ended at hafter
  rcases ended with ⟨fault | value, after⟩
  · exact hafter
  · exact (hnext value).ended after hafter

theorem ensures_session_bind {next : Session σ → Act σ α}
    (hnext : ∀ before, pre before → Ensures (· = before) (next before) post faulty) :
    Ensures pre (session >>= next) post faulty := by
  refine ⟨fun before hbefore => ?_⟩
  rw [outcome_bind]
  exact (hnext before hbefore).ended before rfl

theorem ensures_lift {result : Except Fault α}
    (hok : ∀ value, result = .ok value → ∀ before, pre before → post value before)
    (herror : ∀ fault, result = .error fault → ∀ before, pre before →
      faulty fault before) :
    Ensures pre (lift result) post faulty := by
  refine ⟨fun before hbefore => ?_⟩
  rw [outcome_lift]
  cases result with
  | ok value => exact hok value rfl before hbefore
  | error fault => exact herror fault rfl before hbefore

theorem ensures_tryCatch {handle : Fault → Act σ α}
    {raised : Fault → Session σ → Prop} (hact : Ensures pre act post raised)
    (hhandle : ∀ fault, Ensures (raised fault) (handle fault) post faulty) :
    Ensures pre (tryCatch act handle) post faulty := by
  refine ⟨fun before hbefore => ?_⟩
  have hafter := hact.ended before hbefore
  rw [outcome_tryCatch]
  generalize outcome act before = ended at hafter
  rcases ended with ⟨fault | value, after⟩
  · exact (hhandle fault).ended after hafter
  · exact hafter

theorem ensures_afterwards {tidy : Session σ → Session σ}
    (hact : Ensures pre act post faulty)
    (hpost : ∀ value after, post value after → post' value (tidy after))
    (hfaulty : ∀ fault after, faulty fault after → faulty' fault (tidy after)) :
    Ensures pre (afterwards tidy act) post' faulty' := by
  refine ⟨fun before hbefore => ?_⟩
  have hafter := hact.ended before hbefore
  change Ended post' faulty' ((outcome act before).1, tidy (outcome act before).2)
  generalize outcome act before = ended at hafter ⊢
  rcases ended with ⟨fault | value, after⟩
  · exact hfaulty fault after hafter
  · exact hpost value after hafter

theorem ensures_withOutput {writer : Writer} {before : Session σ}
    {last : α × Writer → Session σ → Prop}
    (hact : Ensures (· = { before with out := writer }) act post faulty)
    (hpost : ∀ value after, post value after →
      last (value, after.out) { after with out := before.out })
    (hfaulty : ∀ fault after, faulty fault after →
      faulty' fault { after with out := before.out }) :
    Ensures (· = before) (withOutput writer act) last faulty' := by
  constructor
  rintro _ rfl
  have hafter := hact.ended _ rfl
  rw [outcome_withOutput]
  generalize outcome act _ = ended at hafter ⊢
  rcases ended with ⟨fault | value, after⟩
  · exact hfaulty fault after hafter
  · exact hpost value after hafter

theorem ensures_each
    (hact : ∀ before, pre before → Ensures (· = before) act post faulty) :
    Ensures pre act post faulty :=
  ⟨fun before hbefore => (hact before hbefore).ended before rfl⟩

theorem Ensures.startingIn (hact : Ensures pre act post faulty) {before : Session σ}
    (hbefore : pre before) : Ensures (· = before) act post faulty := by
  constructor
  rintro _ rfl
  exact hact.ended _ hbefore

theorem Ensures.imp (hact : Ensures pre act post faulty)
    (hpre : ∀ before, pre' before → pre before)
    (hpost : ∀ value after, post value after → post' value after)
    (hfaulty : ∀ fault after, faulty fault after → faulty' fault after) :
    Ensures pre' act post' faulty' := by
  refine ⟨fun before hbefore => ?_⟩
  have hafter := hact.ended before (hpre before hbefore)
  generalize outcome act before = ended at hafter ⊢
  rcases ended with ⟨fault | value, after⟩
  · exact hfaulty fault after hafter
  · exact hpost value after hafter

theorem Ensures.imp_pre (hact : Ensures pre act post faulty)
    (hpre : ∀ before, pre' before → pre before) : Ensures pre' act post faulty :=
  hact.imp hpre (fun _ _ hafter => hafter) fun _ _ hafter => hafter

theorem Ensures.imp_faulty (hact : Ensures pre act post faulty)
    (hfaulty : ∀ fault after, faulty fault after → faulty' fault after) :
    Ensures pre act post faulty' :=
  hact.imp (fun _ hbefore => hbefore) (fun _ _ hafter => hafter) hfaulty

end Ensures

/-- The action can rely on the invariant and keeps it, whatever it comes to. -/
def Keeps (inv : Session σ → Prop) (faulty : Fault → Session σ → Prop)
    (act : Act σ α) : Prop :=
  Ensures inv act (fun _ => inv) fun fault session => inv session ∧
    faulty fault session

theorem keeps_pure {inv : Session σ → Prop} {faulty : Fault → Session σ → Prop}
    (value : α) :
    Keeps inv faulty (pure value) :=
  ensures_pure fun _ hbefore => hbefore

theorem Keeps.andThen {inv : Session σ → Prop} {faulty : Fault → Session σ → Prop}
    {act : Act σ α} {next : α → Act σ β} {last : β → Session σ → Prop}
    (hact : Keeps inv faulty act)
    (hnext : ∀ value, Ensures inv (next value) last fun fault session =>
      inv session ∧ faulty fault session) :
    Ensures inv (act >>= next) last fun fault session => inv session ∧
      faulty fault session :=
  Ensures.bind hact hnext

theorem Keeps.bind {inv : Session σ → Prop} {faulty : Fault → Session σ → Prop}
    {act : Act σ α} {next : α → Act σ β} (hact : Keeps inv faulty act)
    (hnext : ∀ value, Keeps inv faulty (next value)) :
    Keeps inv faulty (act >>= next) :=
  hact.andThen hnext

theorem Keeps.outcome {inv : Session σ → Prop} {faulty : Fault → Session σ → Prop}
    {act : Act σ α} (hact : Keeps inv faulty act) {before after : Session σ}
    (hbefore : inv before) {result : Except Fault α}
    (hended : Act.outcome act before = (result, after)) :
    inv after ∧ ∀ fault, result = .error fault → faulty fault after := by
  have hafter := hact.ended before hbefore
  rw [hended] at hafter
  cases result with
  | ok value =>
      refine ⟨hafter, fun fault hfault => ?_⟩
      cases hfault
  | error raised =>
      refine ⟨hafter.1, fun fault hfault => ?_⟩
      cases hfault
      exact hafter.2

end Act

/-- What writing does not change about a file. -/
def OutputFile.lasting (output : OutputFile) : OutputFile :=
  { output with offset := 0 }

namespace Channel.Writer

def handle? : Writer → Option Nat
  | .file handle => some handle
  | _ => none

end Channel.Writer

/-- What becomes of a writer, and of the machine behind it, when something is
written. -/
structure Wrote (writer : Writer) (machine : Machine) (writer' : Writer)
    (machine' : Machine) :
    Prop where
  handle : writer'.handle? = writer.handle?
  outputs : machine'.outputs.map OutputFile.lasting = machine.outputs.map
    OutputFile.lasting
  journal : machine'.journal = machine.journal
  files : machine'.files = machine.files ∨
    ∃ handle output content, writer.handle? = some handle ∧
      machine.outputs[handle]? = some output ∧
        machine'.files = machine.files.set output.names (.file content)

namespace Channel.Writer

variable {writer writer' : Writer} {machine machine' : Machine}

private theorem map_lasting_set {outputs : List OutputFile} {handle : Nat}
    {output : OutputFile} (houtput : outputs[handle]? = some output) (offset : Nat) :
    (outputs.set handle { output with offset }).map OutputFile.lasting =
      outputs.map OutputFile.lasting := by
  have hlasting : { output with offset }.lasting = output.lasting := rfl
  apply List.ext_getElem?
  intro index
  rw [List.map_set, List.getElem?_set, hlasting]
  split
  · next hindex =>
      subst hindex
      rw [List.getElem?_map, houtput]
      simpa using (List.getElem?_eq_some_iff.mp houtput).1
  · rfl

private theorem wrote_file {handle : Nat} {text : String}
    (hwrite : machine.writeOutput handle text = .ok machine') :
    Wrote (.file handle) machine (.file handle) machine' := by
  unfold Machine.writeOutput at hwrite
  split at hwrite
  · cases hwrite
    exact ⟨rfl, rfl, rfl, .inl rfl⟩
  · next output houtput =>
      split at hwrite
      · cases hwrite
      · simp only at hwrite
        split at hwrite
        · cases hwrite
          exact ⟨rfl, rfl, rfl, .inr ⟨handle, output, _, rfl, houtput, rfl⟩⟩
        · cases hwrite
          exact ⟨rfl, map_lasting_set houtput _, rfl,
            .inr ⟨handle, output, _, rfl, houtput, rfl⟩⟩

theorem wrote_of_write {text : String}
    (hwrite : writer.write machine text = .ok (writer', machine')) :
    Wrote writer machine writer' machine' := by
  cases writer with
  | file handle =>
      rw [write] at hwrite
      cases hfile : machine.writeOutput handle text with
      | error fault =>
          rw [hfile] at hwrite
          cases hwrite
      | ok written =>
          rw [hfile] at hwrite
          cases hwrite
          exact wrote_file hfile
  | _ =>
      cases hwrite
      exact ⟨rfl, rfl, rfl, .inl rfl⟩

theorem wrote_of_writeLine {line : String}
    (hwrite : writer.writeLine machine line = .ok (writer', machine')) :
    Wrote writer machine writer' machine' := by
  cases writer with
  | lines buffer =>
      cases hwrite
      exact ⟨rfl, rfl, rfl, .inl rfl⟩
  | _ => exact wrote_of_write hwrite

/-- The writer stands for a file that has been closed, and the fault says so. -/
def Refuses (writer : Writer) (machine : Machine) (fault : Fault) : Prop :=
  ∃ handle output, writer.handle? = some handle ∧
    machine.outputs[handle]? = some output ∧
    output.closed = true ∧ fault = Machine.closedFile output.path

theorem write_error {text : String} {fault : Fault}
    (hwrite : writer.write machine text = .error fault) :
    writer.Refuses machine fault := by
  cases writer with
  | file handle =>
      rw [write, Machine.writeOutput] at hwrite
      split at hwrite
      · cases hwrite
      · next output houtput =>
          split at hwrite
          · next hclosed =>
              cases hwrite
              exact ⟨handle, output, rfl, houtput, hclosed, rfl⟩
          · simp only at hwrite
            split at hwrite <;> cases hwrite
  | _ => cases hwrite

theorem writeLine_error {line : String} {fault : Fault}
    (hwrite : writer.writeLine machine line = .error fault) :
    writer.Refuses machine fault := by
  cases writer with
  | lines buffer => cases hwrite
  | _ => exact write_error hwrite

end Channel.Writer

namespace Session

structure Frame where
  cancelled : Bool
  registry : Registry
  out : Option Nat
  err : Option Nat
  outputs : List OutputFile

def frame (session : Session σ) : Frame where
  cancelled := session.cancelled
  registry := session.registry
  out := session.out.handle?
  err := session.err.handle?
  outputs := session.machine.outputs.map OutputFile.lasting

/-- What is written goes to the file with these names. -/
def Frame.WritesTo (frame : Frame) (names : List String) : Prop :=
  ∃ handle output, frame.out = some handle ∧ frame.outputs[handle]? = some output ∧
    output.names = names

/-- From the first session to the second there has only been writing to the
output. -/
structure Wrote (before after : Session σ) : Prop where
  frame : after.frame = before.frame
  directory : after.directory = before.directory
  previous : after.previous = before.previous
  owner : after.owner = before.owner
  journal : after.machine.journal = before.machine.journal
  nodes : ∀ names, after.machine.files.get? names = before.machine.files.get? names ∨
    before.frame.WritesTo names ∧
      ∃ content, after.machine.files.get? names = some (.file content)
  opens : ∀ path names, before.frame.WritesTo names →
    before.machine.files.openForReading path = .ok names →
      after.machine.files.openForReading path = .ok names

theorem Wrote.refl (session : Session σ) : session.Wrote session :=
  ⟨rfl, rfl, rfl, rfl, rfl, fun _ => .inl rfl, fun _ _ _ hopen => hopen⟩

private theorem Wrote.trans {first second third : Session σ}
    (hfirst : first.Wrote second) (hsecond : second.Wrote third) :
    first.Wrote third where
  frame := hsecond.frame.trans hfirst.frame
  directory := hsecond.directory.trans hfirst.directory
  previous := hsecond.previous.trans hfirst.previous
  owner := hsecond.owner.trans hfirst.owner
  journal := hsecond.journal.trans hfirst.journal
  nodes names := by
    rcases hsecond.nodes names with hsame | ⟨hwrites, hfile⟩
    · rw [hsame]
      exact hfirst.nodes names
    · exact .inr ⟨hfirst.frame ▸ hwrites, hfile⟩
  opens path names hwrites hopen :=
    hsecond.opens path names (hfirst.frame ▸ hwrites)
      (hfirst.opens path names hwrites hopen)

private theorem wrote_out {session : Session σ} {out : Writer} {machine : Machine}
    (hwrote : PipeShell.Wrote session.out session.machine out machine) :
    session.Wrote { session with out, machine } where
  frame := by rw [frame, frame, hwrote.handle, hwrote.outputs]
  directory := rfl
  previous := rfl
  owner := rfl
  journal := hwrote.journal
  nodes names := by
    rcases hwrote.files with
      hsame | ⟨handle, output, content, hhandle, houtput, hset⟩
    · exact .inl (congrArg (·.get? names) hsame)
    · by_cases hnames : names = output.names
      · by_cases hroot : names = []
        · subst hroot
          exact .inl rfl
        · subst hnames
          exact .inr ⟨⟨handle, output.lasting, hhandle, by simp [frame, houtput],
            rfl⟩, content, (congrArg (·.get? output.names) hset).trans
              (FileTree.get?_set_self hroot _)⟩
      · exact .inl ((congrArg (·.get? names) hset).trans
          (FileTree.get?_set_of_ne hnames _))
  opens path names hwrites hopen := by
    rcases hwrote.files with
      hsame | ⟨handle, output, content, hhandle, houtput, hset⟩
    · exact (congrArg (·.openForReading path) hsame).trans hopen
    · obtain ⟨handle', lasting, hhandle', hlasting, rfl⟩ := hwrites
      have hsame : handle' = handle := Option.some.inj (hhandle'.symm.trans hhandle)
      have hnames : lasting.names = output.names := by
        rw [hsame, frame, List.getElem?_map, houtput] at hlasting
        exact (congrArg OutputFile.names (Option.some.inj hlasting)).symm
      rw [hnames] at hopen ⊢
      exact (congrArg (·.openForReading path) hset).trans
        (FileTree.openForReading_set hopen _)

private theorem Wrote.content {before after : Session σ}
    (hwrote : before.Wrote after) {names : List String}
    (hother : ¬ before.frame.WritesTo names) :
    after.machine.files.content names = before.machine.files.content names := by
  rcases hwrote.nodes names with hsame | ⟨hwrites, -⟩
  · rw [FileTree.content, FileTree.content, hsame]
  · exact absurd hwrites hother

theorem frame_err {session : Session σ} {err : Writer} {machine : Machine}
    (hwrote : PipeShell.Wrote session.err session.machine err machine) :
    { session with err, machine }.frame = session.frame := by
  rw [frame, frame, hwrote.handle, hwrote.outputs]

end Session

/-- The fault comes from the session itself: the run is cancelled, or the errors go
to a file that has been closed. -/
def Session.Halts (session : Session σ) (fault : Fault) : Prop :=
  fault = .cancellation ∧ session.cancelled = true ∨
    session.err.Refuses session.machine fault

def Channel.Source.path? : Source → Option String
  | .file path => some path
  | _ => none

namespace Context

def sources (context : Context) : List String :=
  context.input.path?.toList ++ context.arguments.map context.resolve

def Feeds (context : Context) (session : Session σ) : Prop :=
  session.directory = context.directory ∧ ∃ path ∈ context.sources, ∃ names,
    session.machine.files.openForReading path = .ok names ∧
      session.frame.WritesTo names

def Ends (context : Context) : Fault → Session σ → Prop
  | .cancelled message, session =>
      message = Fault.cancellationMessage ∧ session.cancelled = true
  | .endless, session => context.Feeds session
  | _, _ => True

variable {context : Context} {session : Session σ}

theorem ends_cancellation (hcancelled : session.cancelled = true) :
    context.Ends Fault.cancellation session :=
  ⟨rfl, hcancelled⟩

theorem ends_of_refuses {writer : Writer} {machine : Machine} {fault : Fault}
    (hrefuses : writer.Refuses machine fault) : context.Ends fault session := by
  obtain ⟨handle, output, -, -, -, rfl⟩ := hrefuses
  trivial

theorem ends_of_halts (fault : Fault) (session : Session σ)
    (hhalts : session.Halts fault) :
    context.Ends fault session := by
  rcases hhalts with ⟨rfl, hcancelled⟩ | hrefuses
  · exact ends_cancellation hcancelled
  · exact ends_of_refuses hrefuses

end Context

def Session.Stable (inv : Session σ → Prop) : Prop :=
  ∀ before after, inv before → before.Wrote after → inv after

def Session.StableForErrors (inv : Session σ → Prop) : Prop :=
  ∀ session err machine, inv session →
    PipeShell.Wrote session.err session.machine err machine →
    inv { session with err, machine }

/-- The invariant holds of sessions in the directory of the command, and stays when
the command writes. -/
structure Context.Steady (context : Context) (inv : Session σ → Prop) : Prop where
  out : Session.Stable inv
  err : Session.StableForErrors inv
  directory : ∀ session, inv session → session.directory = context.directory

def Context.Offers (context : Context) (source : Source) : Prop :=
  ∀ path, source.path? = some path → path ∈ context.sources

theorem Context.offers_input (context : Context) : context.Offers context.input := by
  intro path hpath
  rw [sources, hpath]
  exact List.mem_append_left _ (List.mem_singleton.mpr rfl)

theorem Session.stable_wrote (origin : Session σ) : Session.Stable origin.Wrote :=
  fun _ _ hbefore hwrote => hbefore.trans hwrote

namespace Act

variable {inv : Session σ → Prop} {faulty : Fault → Session σ → Prop}
  {context : Context}

theorem keeps_check
    (hfaulty : ∀ fault session, Session.Halts session fault → faulty fault session) :
    Keeps inv faulty check := by
  refine ⟨fun before hbefore => ?_⟩
  rw [outcome_check]
  by_cases hcancelled : before.cancelled = true
  · rw [if_pos hcancelled]
    exact ⟨hbefore, hfaulty _ _ (.inl ⟨rfl, hcancelled⟩)⟩
  · rw [if_neg hcancelled]
    exact hbefore

theorem keeps_putOut {result : Session σ → Except Fault (Writer × Machine)}
    (hok : ∀ session out machine, result session = .ok (out, machine) →
      Wrote session.out session.machine out machine)
    (herror : ∀ session fault, result session = .error fault →
      session.out.Refuses session.machine fault) (hstable : Session.Stable inv) :
    Keeps inv context.Ends (check >>= fun _ => session >>= fun session =>
      lift (result session) >>= fun (out, machine) =>
        set { session with out, machine }) := by
  refine (keeps_check Context.ends_of_halts).bind fun _ => ?_
  refine ensures_session_bind fun before hbefore => ?_
  have hlift : Ensures (· = before) (lift (result before))
      (fun (out, machine) after => after = before ∧
        Wrote before.out before.machine out machine)
      (fun fault after => inv after ∧ context.Ends fault after) := by
    refine ensures_lift ?_ ?_
    · rintro ⟨out, machine⟩ hresult _ rfl
      exact ⟨rfl, hok _ _ _ hresult⟩
    · rintro fault hresult _ rfl
      exact ⟨hbefore, Context.ends_of_refuses (herror _ _ hresult)⟩
  refine hlift.bind fun (out, machine) => ⟨?_⟩
  rintro _ ⟨rfl, hwrote⟩
  exact hstable _ _ hbefore (Session.wrote_out hwrote)

theorem keeps_write (hstable : Session.Stable inv) (text : String) :
    Keeps inv context.Ends (write text) :=
  keeps_putOut (fun _ _ _ => Writer.wrote_of_write)
    (fun _ _ => Writer.write_error) hstable

theorem keeps_writeLine (hstable : Session.Stable inv) (line : String) :
    Keeps inv context.Ends (writeLine line) :=
  keeps_putOut (fun _ _ _ => Writer.wrote_of_writeLine)
    (fun _ _ => Writer.writeLine_error) hstable

theorem keeps_writeLines (hstable : Session.Stable inv) (lines : List String) :
    Keeps inv context.Ends (writeLines lines) := by
  induction lines with
  | nil => exact keeps_pure ()
  | cons line rest ih => exact (keeps_writeLine hstable line).bind fun _ => ih

theorem keeps_reportLine (hstable : Session.StableForErrors inv) (line : String) :
    Keeps inv (fun fault session => session.err.Refuses session.machine fault)
      (reportLine line) := by
  refine ⟨fun before hbefore => ?_⟩
  rw [outcome_reportLine]
  cases hwrite : before.err.writeLine before.machine line with
  | error fault => exact ⟨hbefore, Writer.writeLine_error hwrite⟩
  | ok written => exact hstable _ _ _ hbefore (Writer.wrote_of_writeLine hwrite)

theorem keeps_errorLine
    (hfaulty : ∀ fault session, Session.Halts session fault → faulty fault session)
    (hstable : Session.StableForErrors inv) (line : String) :
    Keeps inv faulty (errorLine line) := by
  refine (keeps_check hfaulty).bind fun _ => ?_
  refine (keeps_reportLine hstable line).imp_faulty ?_
  rintro fault after ⟨hafter, hrefuses⟩
  exact ⟨hafter, hfaulty fault after (.inr hrefuses)⟩

end Act

namespace Channel.Cursor

variable {cancelled : Bool} {files : FileTree} {line : String}

theorem next_error {cursor : Cursor} {fault : Fault} {session : Session σ}
    {context : Context} (hnext : cursor.next session.cancelled files =
      .error fault) : context.Ends fault session := by
  have hof : ∀ reading, nextOf session.cancelled files reading = .error fault →
      context.Ends fault session := by
    intro reading hnext
    unfold nextOf at hnext
    split at hnext
    · cases hnext
      trivial
    · cases hnext
    · split at hnext
      · next hcancelled =>
          cases hnext
          exact Context.ends_cancellation hcancelled
      · cases hnext
  unfold next at hnext
  split at hnext
  · cases hnext
  · cases hnext
  · split at hnext
    · next hcancelled =>
        cases hnext
        exact Context.ends_cancellation hcancelled
    · cases hnext
  · split at hnext
    · next hcancelled =>
        cases hnext
        exact Context.ends_cancellation hcancelled
    · split at hnext
      · cases hnext
        trivial
      · split at hnext
        · cases hnext
          trivial
        · exact hof _ hnext
  · exact hof _ hnext

theorem nextOf_some {reading : Reading} {rest : Cursor}
    (hnext : nextOf cancelled files reading = .ok (some (line, rest))) :
    ∃ later : Reading, rest = .opened later ∧ later.names = reading.names ∧
      later.left (files.content reading.names) < reading.left
        (files.content reading.names) := by
  have hspec := @Reading.next_spec (files.content reading.names) reading files rfl
  unfold nextOf at hnext
  split at hnext
  · cases hnext
  · cases hnext
  · next found later hlater =>
      rw [hlater] at hspec
      split at hnext
      · cases hnext
      · cases hnext
        exact ⟨later, rfl, hspec.1, hspec.2.1⟩

theorem next_unopened_ok {path : String} {found : Option (String × Cursor)}
    (hnext : next cancelled files (.unopened path) = .ok found) :
    ∃ names, files.openForReading path = .ok names ∧
      nextOf cancelled files (Reading.start names) = .ok found := by
  rw [next] at hnext
  split at hnext
  · cases hnext
  · split at hnext
    · cases hnext
    · split at hnext
      · cases hnext
      · next names hopen => exact ⟨names, hopen, hnext⟩

/-- The end is reached within the steps, as long as only the output is written to. -/
def Settles (origin : Session σ) (steps : Nat) : Cursor → Prop
  | .finished => 0 < steps
  | .lines items => items.length < steps
  | .unopened _ => False
  | .opened reading =>
      ¬ origin.frame.WritesTo reading.names ∧
        reading.left (origin.machine.files.content reading.names) < steps

private theorem Settles.next {origin session : Session σ} {steps : Nat}
    {cursor rest : Cursor} (hsettles : cursor.Settles origin (steps + 1))
    (hwrote : origin.Wrote session)
    (hnext : cursor.next cancelled session.machine.files = .ok (some (line, rest))) :
    rest.Settles origin steps := by
  cases cursor with
  | finished => cases hnext
  | lines items =>
      cases items with
      | nil => cases hnext
      | cons first items =>
          rw [Cursor.next] at hnext
          split at hnext
          · cases hnext
          · cases hnext
            exact Nat.lt_of_succ_lt_succ hsettles
  | unopened path => exact hsettles.elim
  | opened reading =>
      obtain ⟨hother, hleft⟩ := hsettles
      obtain ⟨later, rfl, hnames, hless⟩ := nextOf_some hnext
      rw [hwrote.content hother] at hless
      rw [← hnames] at hother hless hleft
      exact ⟨hother, by omega⟩

theorem settles_of_next_unopened {origin : Session σ} {path : String}
    {names : List String} {rest : Cursor}
    (hopen : origin.machine.files.openForReading path = .ok names)
    (hother : ¬ origin.frame.WritesTo names)
    (hnext : Cursor.next cancelled origin.machine.files (.unopened path) =
      .ok (some (line, rest))) :
        rest.Settles origin ((origin.machine.files.content names).length + 1) := by
  obtain ⟨names', hnames, hline⟩ := next_unopened_ok hnext
  have hsame : names = names' := Except.ok.inj (hopen.symm.trans hnames)
  subst hsame
  obtain ⟨later, rfl, hlater, hless⟩ := nextOf_some hline
  have hstart : (Reading.start names).names = names := rfl
  have hleft := Reading.left_start names (origin.machine.files.content names)
  rw [hstart] at hlater hless
  refine ⟨by rwa [hlater], ?_⟩
  rw [hlater]
  omega

private theorem Settles.pos {origin : Session σ} {steps : Nat} {cursor : Cursor}
    (hsettles : cursor.Settles origin steps) : 0 < steps := by
  cases cursor with
  | finished => exact hsettles
  | lines items => exact Nat.zero_lt_of_lt hsettles
  | unopened path => exact hsettles.elim
  | opened reading => exact Nat.zero_lt_of_lt hsettles.2

end Channel.Cursor

namespace Act

variable {inv : Session σ → Prop} {context : Context} {origin : Session σ}

theorem ensures_next (context : Context) (cursor : Cursor) :
    Ensures inv (next cursor)
      (fun found after => inv after ∧
        cursor.next after.cancelled after.machine.files = .ok found)
      fun fault after => inv after ∧ context.Ends fault after := by
  refine ensures_session_bind fun before hbefore => ensures_lift ?_ ?_
  · rintro found hfound _ rfl
    exact ⟨hbefore, hfound⟩
  · rintro fault hfault _ rfl
    exact ⟨hbefore, Cursor.next_error hfault⟩

theorem keeps_foldLines {step : α → String → Act σ α}
    (hstep : ∀ value line, Keeps origin.Wrote context.Ends (step value line))
    {steps : Nat} {cursor : Cursor}
    (hends : cursor.Settles origin steps ∨ ∀ after, origin.Wrote after →
      context.Feeds after)
    (value : α) :
    Keeps origin.Wrote context.Ends (foldLines step steps value cursor) := by
  induction steps generalizing cursor value with
  | zero =>
      -- Steps run out only if the cursor reads what is being written: then there may
      -- be no end.
      refine ensures_throw fun before hbefore => ⟨hbefore, ?_⟩
      rcases hends with hsettles | hfeeds
      · exact absurd hsettles.pos (Nat.lt_irrefl 0)
      · exact hfeeds before hbefore
  | succ steps ih =>
      refine (ensures_next context cursor).bind ?_
      rintro (_ | ⟨line, rest⟩)
      · exact ensures_pure fun _ hbefore => hbefore.1
      · refine ensures_each fun before ⟨hbefore, hnext⟩ => ?_
        refine Ensures.startingIn (Keeps.bind (hstep value line) fun value =>
          ih ?_ value) hbefore
        exact hends.imp_left fun hsettles => hsettles.next hbefore hnext

private theorem ensures_start (source : Source) :
    Ensures inv (start source)
      (fun cursor after => inv after ∧
        Cursor.start after.cancelled source = .ok cursor)
      fun fault after => inv after ∧ context.Ends fault after := by
  refine ensures_session_bind fun before hbefore => ensures_lift ?_ ?_
  · rintro cursor hcursor _ rfl
    exact ⟨hbefore, hcursor⟩
  · rintro fault hfault _ rfl
    refine ⟨hbefore, ?_⟩
    cases source with
    | empty =>
        rw [Cursor.start] at hfault
        split at hfault
        · next hcancelled =>
            cases hfault
            exact Context.ends_cancellation hcancelled
        · cases hfault
    | lines items => cases hfault
    | file path => cases hfault

private theorem ensures_foldLines_unopened {step : α → String → Act σ α}
    (hstep : ∀ value line, Keeps origin.Wrote context.Ends (step value line))
    {path : String} (hdirectory : origin.directory = context.directory)
    (hsource : path ∈ context.sources) (value : α) :
    Ensures (· = origin)
      (foldLines step (Cursor.bound origin.machine.files (.unopened path)) value
        (.unopened path))
      (fun _ => origin.Wrote) fun fault after => origin.Wrote after ∧
        context.Ends fault after := by
  -- The file is opened with the first line, when nothing has been written yet.
  have hfirst : Ensures (· = origin) (next (.unopened path))
      (fun found after => after = origin ∧
        Cursor.next after.cancelled after.machine.files (.unopened path) = .ok found)
      (fun fault after => origin.Wrote after ∧ context.Ends fault after) := by
    refine (ensures_next context _).imp_faulty ?_
    rintro fault _ ⟨rfl, hends⟩
    exact ⟨Session.Wrote.refl _, hends⟩
  rw [Cursor.bound]
  cases hopen : origin.machine.files.openForReading path with
  | error fault =>
      refine hfirst.bind fun found => ensures_each ?_
      rintro _ ⟨rfl, hnext⟩
      obtain ⟨names, hnames, -⟩ := Cursor.next_unopened_ok hnext
      rw [hopen] at hnames
      cases hnames
  | ok names =>
      by_cases hwrites : origin.frame.WritesTo names
      · have hfeeds : ∀ after, origin.Wrote after → context.Feeds after :=
          fun after hwrote =>
          ⟨hwrote.directory.trans hdirectory, path, hsource, names,
            hwrote.opens path names hwrites hopen, hwrote.frame ▸ hwrites⟩
        exact (keeps_foldLines hstep (.inr hfeeds) value).startingIn
          (Session.Wrote.refl origin)
      · refine hfirst.bind fun found => ensures_each ?_
        rintro _ ⟨rfl, hnext⟩
        refine Ensures.startingIn ?_ (Session.Wrote.refl _)
        rcases found with _ | ⟨line, rest⟩
        · exact keeps_pure value
        · have hsettles := Cursor.settles_of_next_unopened hopen hwrites hnext
          exact Keeps.bind (hstep value line) fun value =>
            keeps_foldLines hstep (.inl hsettles) value

theorem ensures_files (before : Session σ) {faulty : Fault → Session σ → Prop} :
    Ensures (· = before) files (fun tree after => after = before ∧
      tree = before.machine.files)
      faulty := by
  constructor
  rintro _ rfl
  exact ⟨rfl, rfl⟩

theorem keeps_foldSource {step : α → String → Act σ α}
    (hstep : ∀ origin value line,
      Keeps (Session.Wrote origin) context.Ends (step value line))
    (hsteady : context.Steady inv) {source : Source}
    (hsource : context.Offers source) (value : α) :
    Keeps inv context.Ends (foldSource step value source) := by
  refine (ensures_start source).bind fun cursor =>
    ensures_each fun origin ⟨horigin, hstart⟩ => ?_
  have hsettled : cursor.Settles origin (cursor.bound origin.machine.files) →
      Ensures (· = origin) (foldLines step (cursor.bound origin.machine.files)
        value cursor)
        (fun _ => origin.Wrote) fun fault after => origin.Wrote after ∧
          context.Ends fault after :=
    fun hsettles => (keeps_foldLines (hstep origin) (.inl hsettles) value).startingIn
      (Session.Wrote.refl origin)
  have hfold : Ensures (· = origin)
      (foldLines step (cursor.bound origin.machine.files) value cursor)
        (fun _ => origin.Wrote)
      fun fault after => origin.Wrote after ∧ context.Ends fault after := by
    cases source with
    | file path =>
        cases hstart
        exact ensures_foldLines_unopened (hstep origin)
          (hsteady.directory origin horigin)
          (hsource path rfl) value
    | lines items =>
        cases hstart
        exact hsettled (Nat.lt_succ_self _)
    | empty =>
        rw [Cursor.start] at hstart
        split at hstart <;> cases hstart
        exact hsettled Nat.one_pos
  refine Ensures.bind (ensures_files origin) fun tree => ensures_each ?_
  rintro _ ⟨rfl, rfl⟩
  exact hfold.imp (fun _ hbefore => hbefore) (fun _ after hwrote =>
    hsteady.out _ _ horigin hwrote)
    (fun _ after hafter => ⟨hsteady.out _ _ horigin hafter.1, hafter.2⟩)

theorem keeps_eachLine {step : String → Act σ Unit}
    (hstep : ∀ origin line, Keeps (Session.Wrote origin) context.Ends (step line))
    (hsteady : context.Steady inv) {source : Source}
    (hsource : context.Offers source) :
    Keeps inv context.Ends (eachLine step source) :=
  keeps_foldSource (fun origin _ => hstep origin) hsteady hsource ()

theorem keeps_readLines (hsteady : context.Steady inv) {source : Source}
    (hsource : context.Offers source) : Keeps inv context.Ends (readLines source) :=
  (keeps_foldSource (fun _ _ _ => keeps_pure _) hsteady hsource #[]).bind fun _ =>
    keeps_pure _

end Act

end PipeShell
