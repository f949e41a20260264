import PipeShell.Proofs.HistoryWindow

namespace PipeShell

open Journal (Entry Level)

inductive JournalCall where
  | start (settings : Machine.JournalSettings)
  | log (time : Int) (level : Level) (subsystem message : String)
      (context : Table Json)
      (report : Option String)
  | clear
  | stop

namespace JournalCall

def noted? : JournalCall → Option Entry
  | .log time level subsystem message context report =>
      some ⟨time, ⟨level.number, subsystem, message, context, report⟩⟩
  | _ => none

def perform (machine : Machine) : JournalCall → Machine × Except Fault Unit
  | .start settings => machine.startJournal settings
  | .log time level subsystem message context report =>
      ({ machine with clock := time }.note
        ⟨level.number, subsystem, message, context, report⟩, .ok ())
  | .clear => (machine.clearJournal, .ok ())
  | .stop => (machine.stopJournal, .ok ())

def isStop : JournalCall → Bool
  | .stop => true
  | _ => false

def isClear : JournalCall → Bool
  | .clear => true
  | _ => false

def settings? : JournalCall → Option Machine.JournalSettings
  | .start settings => some settings
  | _ => none

end JournalCall

namespace Machine

def afterCalls (machine : Machine) (calls : List JournalCall) : Machine :=
  calls.foldl (fun machine call => (call.perform machine).1) machine

/-- The calls, each with whether it succeeded. -/
def trace : Machine → List JournalCall → List (JournalCall × Bool)
  | _, [] => []
  | machine, call :: calls =>
      let (next, outcome) := call.perform machine
      (call, outcome.isOk) :: trace next calls

end Machine

namespace JournalCall

/-- The settings that a call brings into force when nothing is in force. -/
def takesHold : JournalCall × Bool → Option Machine.JournalSettings
  | (call, true) => call.settings?
  | (_, false) => none

/-- The settings of the first start that succeeded since the last stop, and the calls
after it. -/
def period (past : List (JournalCall × Bool)) :
    Option (Machine.JournalSettings × List JournalCall) :=
  match (past.rtakeWhile fun done => !done.1.isStop).dropWhile fun done =>
    (takesHold done).isNone with
  | [] => none
  | first :: since =>
      (takesHold first).map fun settings => (settings, since.map (·.1))

/-- What was logged since the last time everything was cleared. -/
def logged (since : List JournalCall) : List Entry :=
  (since.rtakeWhile fun call => !call.isClear).filterMap noted?

/-- The newest of what was logged at a level or above it. There is room for one entry
at least. -/
def held (least capacity : Int) (since : List JournalCall) : List Entry :=
  ((logged since).filter fun entry => least ≤ entry.note.level).rtake
    (max 1 capacity.toNat)

/-- The level from which entries are noted: a warning where zero was asked for. -/
def leastNoted (settings : Machine.JournalSettings) : Int :=
  if settings.level = 0 then Level.warning.number else settings.level

private theorem period_concat (past : List (JournalCall × Bool)) (call : JournalCall)
    (succeeded : Bool) :
    period (past ++ [(call, succeeded)]) =
      if call.isStop then none
      else
        match period past with
        | some (settings, since) => some (settings, since ++ [call])
        | none =>
            (takesHold (call, succeeded)).map fun settings => (settings, []) := by
  unfold period
  cases hstop : call.isStop with
  | true => rw [List.rtakeWhile_concat_neg _ _ _ (by simp [hstop])]; rfl
  | false =>
      rw [List.rtakeWhile_concat_pos _ _ _ (by simp [hstop]), List.dropWhile_append]
      have hfirst := List.head?_dropWhile_not (fun done => (takesHold done).isNone)
        (past.rtakeWhile fun done => !done.1.isStop)
      generalize (past.rtakeWhile fun done => !done.1.isStop).dropWhile
        (fun done => (takesHold done).isNone) = running at hfirst ⊢
      cases running with
      | nil =>
          cases htakes : takesHold (call, succeeded) <;> simp [htakes]
      | cons first since =>
          obtain ⟨settings, htakes⟩ :=
            Option.isSome_iff_exists.mp (by simpa using hfirst)
          simp [htakes]

theorem logged_concat (since : List JournalCall) (call : JournalCall) :
    logged (since ++ [call]) =
      if call.isClear then [] else logged since ++ call.noted?.toList := by
  unfold logged
  cases hclear : call.isClear with
  | true => rw [List.rtakeWhile_concat_neg _ _ _ (by simp [hclear])]; rfl
  | false =>
      rw [List.rtakeWhile_concat_pos _ _ _ (by simp [hclear]), List.filterMap_append]
      cases hentry : call.noted? <;> simp [hentry]

private theorem held_concat_clear (least capacity : Int) (since : List JournalCall) :
    held least capacity (since ++ [.clear]) = [] := by
  simp [held, logged_concat, isClear, List.rtake]

/-- What is logged at the level or above it comes to what was held, and the rest
makes no difference. -/
theorem held_concat {least capacity : Int} {since : List JournalCall}
    {call : JournalCall} (hclear : call.isClear = false) :
    held least capacity (since ++ [call]) =
      match call.noted?.filter fun entry => least ≤ entry.note.level with
      | some entry =>
          (held least capacity since ++ [entry]).rtake (max 1 capacity.toNat)
      | none => held least capacity since := by
  unfold held
  rw [logged_concat, if_neg (by simp [hclear]), List.filter_append]
  cases hentry : call.noted? with
  | none => simp
  | some entry =>
      cases hleast : decide (least ≤ entry.note.level) with
      | false => simp [Option.filter, hleast]
      | true =>
          rw [Option.filter_some_pos (by simpa using hleast)]
          dsimp only
          rw [rtake_concat_rtake]
          simp [hleast]

private theorem exists_level {since : List JournalCall} {least capacity : Int}
    {entry : Entry} (hentry : entry ∈ held least capacity since) :
    ∃ level : Level, entry.note.level = level.number := by
  have hlogged : entry ∈ logged since :=
    List.mem_of_mem_filter (List.mem_of_mem_drop hentry)
  obtain ⟨call, -, hcall⟩ := List.mem_filterMap.mp hlogged
  cases call with
  | log time level =>
      cases hcall
      exact ⟨level, rfl⟩
  | start | clear | stop => exact nomatch hcall

end JournalCall

namespace Machine

variable {machine : Machine}

private theorem journal_publish (machine : Machine) (journal : Journal)
    (entry : Entry) :
    (machine.publish journal entry).journal = some (journal.keep entry) := by
  unfold publish
  cases journal.console <;> cases journal.file <;> rfl

private theorem startJournal_of_some {journal : Journal}
    (hjournal : machine.journal = some journal) (settings : JournalSettings) :
    machine.startJournal settings = (machine, .ok ()) := by
  rw [startJournal, if_pos (by rw [hjournal]; rfl)]

private theorem capacityFor_ok {wanted : Int} {capacity : Nat}
    (h : capacityFor wanted = .ok capacity) :
    capacity = max 1 wanted.toNat := by
  unfold capacityFor at h
  split at h
  · exact nomatch h
  · exact (Except.ok.inj h).symm

private theorem journal_openJournalFile (machine : Machine) (path : String) :
    (machine.openJournalFile path).1.journal = machine.journal := by
  unfold openJournalFile
  split
  · rfl
  · split
    · rfl
    · split <;> rfl

theorem startJournal_of_none (hoff : machine.journal = none)
    (settings : JournalSettings) :
    (∃ fault, (machine.startJournal settings).2 = .error fault ∧
      (machine.startJournal settings).1.journal = none) ∨
    ((machine.startJournal settings).2 = .ok () ∧
      ∃ journal, (machine.startJournal settings).1.journal = some journal ∧
        journal.level = settings.level ∧
          journal.capacity = max 1 settings.capacity.toNat ∧
        journal.entries = []) := by
  rw [startJournal, if_neg (by simp [hoff])]
  split
  · exact .inl ⟨_, rfl, hoff⟩
  · next hcapacity _ => exact .inr ⟨rfl, _, rfl, rfl, capacityFor_ok hcapacity, rfl⟩
  · next hcapacity _ =>
      have hopen := journal_openJournalFile machine (settings.file.getD "")
      split
      · next heq =>
          rw [heq] at hopen
          exact .inl ⟨_, rfl, hopen.trans hoff⟩
      · exact .inr ⟨rfl, _, rfl, rfl, capacityFor_ok hcapacity, rfl⟩

private theorem startJournal_ok (settings : JournalSettings)
    (hcapacity : settings.capacity ≤ 9223372036854775807)
    (hfile : settings.file.getD "" = "") :
    (machine.startJournal settings).2 = .ok () := by
  have hroom : capacityFor settings.capacity =
      .ok (max 1 settings.capacity.toNat) := by
    have hmost : maxCapacity = 9223372036854775807 := rfl
    rw [capacityFor, if_neg]
    omega
  rw [startJournal]
  split
  · rfl
  · rw [hroom, hfile]
    rfl

end Machine

namespace JournalCall

structure Holding (journal : Journal)
    (current : Machine.JournalSettings × List JournalCall) :
    Prop where
  level : journal.level = current.1.level
  capacity : journal.capacity = max 1 current.1.capacity.toNat
  entries : journal.entries = held (leastNoted current.1) current.1.capacity
    current.2

/-- The journal of a machine is what the past calls say. -/
def Reflects (machine : Machine) (past : List (JournalCall × Bool)) : Prop :=
  Option.Rel Holding machine.journal (period past)

private theorem admits_iff {journal : Journal} {settings : Machine.JournalSettings}
    (hlevel : journal.level = settings.level) (level : Level) :
    journal.admits level.number = true ↔ leastNoted settings ≤ level.number := by
  have hpositive : 0 < level.number := by cases level <;> decide
  simp [Journal.admits, Journal.leastLevel, leastNoted, Journal.usualLevel,
    hlevel, hpositive]

private theorem Holding.log {journal : Journal} {settings : Machine.JournalSettings}
    {since : List JournalCall} (hholding : Holding journal (settings, since))
    {machine : Machine} (hjournal : machine.journal = some journal) (time : Int)
    (level : Level) (subsystem message : String) (context : Table Json)
    (report : Option String) :
    ∃ journal', (perform machine
      (.log time level subsystem message context report)).1.journal =
        some journal' ∧
      Holding journal'
        (settings, since ++ [.log time level subsystem message context report]) := by
  simp only [perform, Machine.note, hjournal]
  split
  · next hadmits =>
      have hleast := (admits_iff hholding.level level).mp hadmits
      refine ⟨_, Machine.journal_publish _ _ _, hholding.level,
        hholding.capacity, ?_⟩
      rw [held_concat rfl]
      simp only [noted?, Option.filter, hleast, decide_true, if_true,
        ← hholding.capacity]
      rw [← hholding.entries]
      rfl
  · next hadmits =>
      have hleast : ¬ leastNoted settings ≤ level.number := fun h =>
        hadmits ((admits_iff hholding.level level).mpr h)
      refine ⟨journal, rfl, hholding.level, hholding.capacity, ?_⟩
      rw [held_concat rfl]
      simp [noted?, Option.filter, hleast, hholding.entries]

private theorem Reflects.perform {machine : Machine}
    {past : List (JournalCall × Bool)} (hreflects : Reflects machine past)
    (call : JournalCall) :
    Reflects (call.perform machine).1
      (past ++ [(call, (call.perform machine).2.isOk)]) := by
  unfold Reflects at hreflects ⊢
  rw [period_concat]
  generalize period past = current at hreflects ⊢
  generalize hjournal : machine.journal = journal? at hreflects
  cases call with
  | stop => exact .none
  | clear =>
      cases hreflects with
      | none =>
          simp only [JournalCall.perform, Machine.clearJournal, hjournal]
          exact .none
      | some hholding =>
          simp only [JournalCall.perform, Machine.clearJournal, hjournal]
          exact .some ⟨hholding.level, hholding.capacity,
            (held_concat_clear _ _ _).symm⟩
  | log time level subsystem message context report =>
      cases hreflects with
      | none =>
          simp only [JournalCall.perform, Machine.note, hjournal]
          exact .none
      | some hholding =>
          obtain ⟨journal', hjournal', hholding'⟩ :=
            hholding.log hjournal time level subsystem message context report
          rw [hjournal']
          exact .some hholding'
  | start settings =>
      cases hreflects with
      | none =>
          obtain ⟨fault, hfault, hnone⟩ | ⟨hok, journal, hsome, hlevel, hcapacity,
            hentries⟩ :=
            Machine.startJournal_of_none hjournal settings
          · simp only [JournalCall.perform, hfault, hnone]
            exact .none
          · simp only [JournalCall.perform, hok, hsome]
            exact .some ⟨hlevel, hcapacity,
              hentries.trans (by simp [held, logged, List.rtake])⟩
      | some hholding =>
          simp only [JournalCall.perform, Machine.startJournal_of_some hjournal,
            hjournal]
          refine .some ⟨hholding.level, hholding.capacity, hholding.entries.trans ?_⟩
          rw [held_concat rfl]
          rfl

private theorem Reflects.afterCalls {machine : Machine}
    {past : List (JournalCall × Bool)} (hreflects : Reflects machine past)
    (calls : List JournalCall) :
    Reflects (machine.afterCalls calls) (past ++ machine.trace calls) := by
  induction calls generalizing machine past with
  | nil => simpa [Machine.afterCalls, Machine.trace] using hreflects
  | cons call calls ih =>
      have hnext := ih (hreflects.perform call)
      rw [List.append_assoc] at hnext
      exact hnext

end JournalCall

namespace Journal

/-- The level that a name asks for; no name and an empty one ask for none. -/
def leastNamed : Option String → Except Fault (Option Level)
  | none => .ok none
  | some name => if name = "" then .ok none else (Level.ofName name).map some

def Meets (least : Option Level) (subsystem : Option String) (entry : Entry) :
    Prop :=
  (∀ level ∈ least, level.number ≤ entry.note.level) ∧
    ∀ name ∈ subsystem, name ≠ "" → entry.note.subsystem = name

instance (least : Option Level) (subsystem : Option String) :
    DecidablePred (Meets least subsystem) :=
  fun _ => inferInstanceAs (Decidable (_ ∧ _))

def cutTo (limit : Int) (entries : List Entry) : List Entry :=
  if 0 < limit then entries.rtake limit.toNat else entries

private theorem Level.ofName_label (level : Level) :
    Level.ofName (Level.label level.number) = .ok level := by
  cases level <;> rfl

private theorem mapM_ofName {entries : List Entry}
    (hlevels : ∀ entry ∈ entries, ∃ level : Level, entry.note.level = level.number)
    (least : Level) :
    ∃ levels, (entries.mapM fun entry => Level.ofName entry.label) = .ok levels ∧
      ((entries.zip levels).filter fun (_, level) =>
          least.number ≤ level.number).map (·.1) =
        entries.filter fun entry => least.number ≤ entry.note.level := by
  induction entries with
  | nil => exact ⟨[], rfl, rfl⟩
  | cons entry entries ih =>
      obtain ⟨⟨level, hlevel⟩, hrest⟩ := List.forall_mem_cons.mp hlevels
      obtain ⟨levels, hread, hchosen⟩ := ih hrest
      have hfirst : Level.ofName entry.label = .ok level := by
        rw [Entry.label, hlevel, Level.ofName_label]
      refine ⟨level :: levels, ?_, ?_⟩
      · simp [List.mapM_cons, hfirst, hread, bind, Except.bind, pure, Except.pure]
      · simp only [List.zip_cons_cons, List.filter_cons, hlevel]
        split
        · rw [List.map_cons, hchosen]
        · exact hchosen

private theorem atLeast_eq {entries : List Entry}
    (hlevels : ∀ entry ∈ entries, ∃ level : Level, entry.note.level = level.number)
    (level : Option String) :
    atLeast level entries = (leastNamed level).map fun least =>
      entries.filter fun entry => ∀ level ∈ least,
        level.number ≤ entry.note.level := by
  unfold atLeast
  split
  · simp [leastNamed, Except.map]
  · simp [leastNamed, Except.map]
  · next name hname =>
      rw [leastNamed, if_neg hname]
      cases hleast : Level.ofName name with
      | error fault => rfl
      | ok least =>
          obtain ⟨levels, hread, hchosen⟩ := mapM_ofName hlevels least
          simp only [bind, Except.bind, hread, pure, Except.pure, hchosen]
          simp [Except.map]

private theorem ofSubsystem_eq (subsystem : Option String) (entries : List Entry) :
    ofSubsystem subsystem entries =
      entries.filter fun entry => ∀ name ∈ subsystem, name ≠ "" →
        entry.note.subsystem = name := by
  cases subsystem with
  | none => simp [ofSubsystem]
  | some name =>
      rw [ofSubsystem]
      split
      · next hname => simp [hname]
      · next hname => simp [hname]

theorem select_eq {entries : List Entry}
    (hlevels : ∀ entry ∈ entries, ∃ level : Level, entry.note.level = level.number)
    (level subsystem : Option String) (limit : Int) :
    select level subsystem limit entries = (leastNamed level).map fun least =>
      cutTo limit (entries.filter fun entry => Meets least subsystem entry) := by
  rw [select, atLeast_eq hlevels]
  cases leastNamed level with
  | error fault => rfl
  | ok least =>
      have hboth : ofSubsystem subsystem
          (entries.filter fun entry => ∀ level ∈ least,
            level.number ≤ entry.note.level) =
          entries.filter fun entry => Meets least subsystem entry := by
        rw [ofSubsystem_eq, List.filter_filter]
        apply List.filter_congr
        intro entry _
        simp [Meets, and_comm]
      simp only [Except.map, bind, Except.bind, pure, Except.pure, hboth]
      rfl

end Journal

namespace Machine

open JournalCall Journal

/-- After any calls the journal holds the newest of what was logged, at the level it
was started with or above it, since the start that counts or since it was cleared.
Level zero counts as a warning. What is asked of it is filtered before it is cut. -/
theorem afterCalls_journal {machine : Machine} (hoff : machine.journal = none)
    (calls : List JournalCall) :
    ((machine.afterCalls calls).journal.map (·.entries) =
      (period (machine.trace calls)).map fun (settings, since) =>
        held (leastNoted settings) settings.capacity since) ∧
    (∀ (level subsystem : Option String) (limit : Int),
      (machine.afterCalls calls).journalEntries level subsystem limit =
        match period (machine.trace calls) with
        | none => .ok []
        | some (settings, since) =>
            (leastNamed level).map fun least =>
              cutTo limit ((held (leastNoted settings) settings.capacity
                since).filter fun entry => Meets least subsystem entry)) ∧
    ∀ settings : JournalSettings, settings.capacity ≤ 9223372036854775807 →
      settings.file.getD "" = "" →
      ((machine.afterCalls calls).startJournal settings).2 = .ok () := by
  have hstart : Reflects machine [] := by
    rw [Reflects, hoff]
    exact .none
  have hreflects := hstart.afterCalls calls
  rw [List.nil_append, Reflects] at hreflects
  refine ⟨?_, ?_, fun settings hcapacity hfile =>
    startJournal_ok settings hcapacity hfile⟩
  · generalize (machine.afterCalls calls).journal = journal at hreflects ⊢
    generalize period (machine.trace calls) = current at hreflects ⊢
    cases hreflects with
    | none => rfl
    | some hholding => exact congrArg some hholding.entries
  · intro level subsystem limit
    rw [journalEntries]
    generalize (machine.afterCalls calls).journal = journal at hreflects ⊢
    generalize period (machine.trace calls) = current at hreflects ⊢
    cases hreflects with
    | none => rfl
    | some hholding =>
        dsimp only
        rw [hholding.entries]
        exact select_eq (fun _ => exists_level) level subsystem limit

def remark (level : Level) (message : String) : JournalCall :=
  .log 1700000000250 level "test" message [] none

theorem afterCalls_journal_cleared :
    let machine := Machine.new .empty "/" 0 false
    let two := { JournalSettings.usual with level := 20, capacity := 2 }
    machine.journal = none ∧
    ((machine.afterCalls [.stop, .start two, remark .error "a",
      .start .usual, .clear,
        remark .info "b", remark .debug "c", remark .warning "d",
          remark .error "e"]).journal.map
          fun journal => journal.entries.map (·.note.message)) = some ["d", "e"] ∧
    (two.capacity ≤ 9223372036854775807 ∧ two.file.getD "" = "" ∧
      ((machine.afterCalls []).startJournal two).2 = .ok ()) := by
  intro machine two
  have hoff : machine.journal = none := rfl
  obtain ⟨hentries, -, -⟩ :=
    afterCalls_journal hoff [.stop, .start two, remark .error "a", .start .usual,
      .clear, remark .info "b", remark .debug "c", remark .warning "d",
    remark .error "e"]
  obtain ⟨-, -, hstarts⟩ := afterCalls_journal hoff []
  have hcapacity : two.capacity ≤ 9223372036854775807 := by decide
  have hfile : two.file.getD "" = "" := rfl
  refine ⟨hoff, ?_, hcapacity, hfile, hstarts two hcapacity hfile⟩
  have hmessages := congrArg (Option.map (List.map (·.note.message))) hentries
  rw [Option.map_map] at hmessages
  exact hmessages.trans rfl

/-- A journal that is started at level zero drops what is logged above zero. -/
theorem afterCalls_journal_zero :
    let machine := Machine.new .empty "/" 0 false
    let zero := { JournalSettings.usual with level := 0 }
    let calls := [.start zero, remark .info "m"]
    period (machine.trace calls) = some (zero, [remark .info "m"]) ∧
      (machine.afterCalls calls).journal.map (·.entries.length) = some 0 ∧
      (held zero.level zero.capacity [remark .info "m"]).length = 1 :=
  ⟨rfl, rfl, rfl⟩

end Machine

end PipeShell
