import Mathlib.Data.List.Nodup
import PipeShell.Proofs.OptionSlots

/-! The outcome of binding, for a command whose options have slots of their own. The
first mention that cannot be bound decides which fault there is, and after the
mentions the first required option without one. If there is none, every option has
its default, its last value, or the items of all its mentions. -/

namespace PipeShell

/-- Every parser reads the text or finds fault with it. -/
def Parsers.Pure (parsers : Parsers) : Prop :=
  ∀ name parse, Table.get? name parsers = some parse →
    ∀ raw message, parse raw ≠ .error (.cancelled message)

/-- The options of a command that can be made are told apart by their names and by
their slots. -/
structure CommandSchema.WellFormed (schema : CommandSchema) : Prop where
  names : CommandDeclaration.checkNames schema.name [] [] schema.options = .ok ()
  slots : (schema.options.map OptionSchema.slot).Nodup
  made : ∃ fresh, schema.newInstance = .ok fresh

namespace CommandSchema.WellFormed

variable {schema : CommandSchema}

theorem namesApart (hwell : schema.WellFormed) : schema.NamesApart :=
  (CommandDeclaration.checkNames_ok hwell.names).1

theorem eq_of_slot (hwell : schema.WellFormed) {left right : OptionSchema}
    (hleft : left ∈ schema.options) (hright : right ∈ schema.options)
    (hslot : left.slot = right.slot) : left = right :=
  List.inj_on_of_nodup_map hwell.slots hleft hright hslot

end CommandSchema.WellFormed

namespace Binding

/-- The items of all mentions of an option, in the order of the mentions. -/
inductive Gathers (parsers : Parsers) (schema : CommandSchema)
    (option : OptionSchema) :
    List Occurrence → List Value → Prop
  | nil : Gathers parsers schema option [] []
  | skip {occurrence : Occurrence} {rest : List Occurrence} {items : List Value}
      (hother : ¬Means schema occurrence option)
      (hrest : Gathers parsers schema option rest items) :
      Gathers parsers schema option (occurrence :: rest) items
  | take {occurrence : Occurrence} {rest : List Occurrence}
      {first items : List Value} (hmeans : Means schema occurrence option)
      (hfirst : (Conversion.elements occurrence.quoted
        (occurrence.value.getD "")).mapM (Conversion.element parsers option) =
          .ok first)
      (hrest : Gathers parsers schema option rest items) :
      Gathers parsers schema option (occurrence :: rest) (first ++ items)

/-- The value of an option after the mentions. -/
inductive Holds (parsers : Parsers) (schema : CommandSchema) (option : OptionSchema)
    (occurrences : List Occurrence) : Value → Prop
  | absent (habsent : ∀ occurrence ∈ occurrences, ¬Means schema occurrence option) :
      Holds parsers schema option occurrences option.default
  | flag {occurrence : Occurrence} (hflag : option.isFlag = true)
      (hoccurrence : occurrence ∈ occurrences)
      (hmeans : Means schema occurrence option) :
      Holds parsers schema option occurrences (.bool true)
  | scalar {occurrence : Occurrence} {before after : List Occurrence} {value : Value}
      (hflag : option.isFlag = false) (hlist : option.isList = false)
      (hoccurrences : occurrences = before ++ occurrence :: after)
      (hmeans : Means schema occurrence option)
      (hlast : ∀ later ∈ after, ¬Means schema later option)
      (hvalue : Conversion.element parsers option (occurrence.value.getD "") =
        .ok value) :
      Holds parsers schema option occurrences value
  | list {occurrence : Occurrence} {items : List Value}
      (hflag : option.isFlag = false) (hlist : option.isList = true)
      (hoccurrence : occurrence ∈ occurrences)
      (hmeans : Means schema occurrence option)
      (hitems : Gathers parsers schema option occurrences items) :
      Holds parsers schema option occurrences (.list items)

/-- A required option that the line does not mention. -/
def Missing (invocation : Invocation) (schema : CommandSchema)
    (option : OptionSchema) : Prop :=
  option.required = true ∧
    ∀ occurrence ∈ invocation.options, ¬Means schema occurrence option

/-- Why an invocation is not bound: its first mention that cannot be, and where all
can be, the first option that it misses. -/
inductive Refused (parsers : Parsers) (invocation : Invocation)
    (schema : CommandSchema) :
    Fault → Prop
  | mention {occurrence : Occurrence} {before after : List Occurrence}
      {fault : Fault} (hoccurrences : invocation.options = before ++
        occurrence :: after)
      (hbefore : ∀ earlier ∈ before, ∀ other,
        ¬Offends parsers invocation schema earlier other)
      (hoffends : Offends parsers invocation schema occurrence fault) :
      Refused parsers invocation schema fault
  | missing {option : OptionSchema} {before after : List OptionSchema}
      (hsound : ∀ occurrence ∈ invocation.options, ∀ fault,
        ¬Offends parsers invocation schema occurrence fault)
      (hoptions : schema.options = before ++ option :: after)
      (hbefore : ∀ earlier ∈ before, ¬Missing invocation schema earlier)
      (hmissing : Missing invocation schema option) :
      Refused parsers invocation schema
        (refuse invocation schema (.requiredMissing option.long))

structure FollowsRules (parsers : Parsers) (invocation : Invocation)
    (schema : CommandSchema) (result : Except Fault (BoundCommand × Journal.Note)) :
    Prop where
  refused_iff : ∀ fault, result = .error fault ↔
    Refused parsers invocation schema fault
  reported_iff : parsers.Pure →
    ((∃ fault, result = .error fault ∧ fault.OfKind .bind) ↔
      (∃ occurrence ∈ invocation.options, ∃ fault,
        Offends parsers invocation schema occurrence fault) ∨
      ∃ option ∈ schema.options, Missing invocation schema option)
  values : ∀ bound note, result = .ok (bound, note) →
    ∀ option ∈ schema.options, ∃ value,
    Table.get? option.slot bound.command.values = some value ∧
      Holds parsers schema option invocation.options value

variable {parsers : Parsers} {invocation : Invocation} {schema : CommandSchema}
  {option : OptionSchema} {occurrence : Occurrence} {done : List Occurrence}
    {update : Update}
  {state next : State}

private theorem gathers_nil
    (habsent : ∀ occurrence ∈ done, ¬Means schema occurrence option) :
    Gathers parsers schema option done [] := by
  induction done with
  | nil => exact .nil
  | cons occurrence rest ih =>
      rw [List.forall_mem_cons] at habsent
      exact .skip habsent.1 (ih habsent.2)

private theorem Gathers.concat_skip {items : List Value}
    (hitems : Gathers parsers schema option done items)
    (hother : ¬Means schema occurrence option) :
    Gathers parsers schema option (done ++ [occurrence]) items := by
  induction hitems with
  | nil => exact .skip hother .nil
  | skip hfirst _ ih => exact .skip hfirst ih
  | take hmeans hfirst _ ih => exact .take hmeans hfirst ih

private theorem Gathers.concat_take {items last : List Value}
    (hitems : Gathers parsers schema option done items)
    (hmeans : Means schema occurrence option)
    (hlast : (Conversion.elements occurrence.quoted (occurrence.value.getD "")).mapM
      (Conversion.element parsers option) = .ok last) :
    Gathers parsers schema option (done ++ [occurrence]) (items ++ last) := by
  induction hitems with
  | nil =>
      have hsingle := Gathers.take hmeans hlast .nil
      rwa [List.append_nil] at hsingle
  | skip hfirst _ ih => exact .skip hfirst ih
  | take hfirst hconvert _ ih =>
      rw [List.append_assoc]
      exact .take hfirst hconvert ih

private theorem Holds.concat {value : Value}
    (hholds : Holds parsers schema option done value)
    (hother : ¬Means schema occurrence option) :
    Holds parsers schema option (done ++ [occurrence]) value := by
  cases hholds with
  | absent habsent =>
      refine .absent ?_
      intro mention hmention
      rcases List.mem_append.mp hmention with hmention | hmention
      · exact habsent mention hmention
      · rwa [List.mem_singleton.mp hmention]
  | flag hflag hoccurrence hmeans =>
      exact .flag hflag (List.mem_append_left _ hoccurrence) hmeans
  | scalar hflag hlist hoccurrences hmeans hlast hvalue =>
      rw [hoccurrences, List.append_assoc, List.cons_append]
      refine .scalar hflag hlist rfl hmeans ?_ hvalue
      intro later hlater
      rcases List.mem_append.mp hlater with hlater | hlater
      · exact hlast later hlater
      · rwa [List.mem_singleton.mp hlater]
  | list hflag hlist hoccurrence hmeans hitems =>
      exact .list hflag hlist (List.mem_append_left _ hoccurrence) hmeans
        (hitems.concat_skip hother)

theorem Holds.gathers {value : Value}
    (hholds : Holds parsers schema option done value) (hflag : option.isFlag = false)
    (hlist : option.isList = true)
    (hmentioned : ∃ occurrence ∈ done, Means schema occurrence option) :
    ∃ items, value = .list items ∧ Gathers parsers schema option done items := by
  cases hholds with
  | absent habsent =>
      obtain ⟨occurrence, hoccurrence, hmeans⟩ := hmentioned
      exact absurd hmeans (habsent occurrence hoccurrence)
  | flag hother => rw [hflag] at hother; cases hother
  | scalar _ hother => rw [hlist] at hother; cases hother
  | list _ _ _ _ hitems => exact ⟨_, rfl, hitems⟩

/-- The state after some mentions: it remembers the options that they mean, and each
option has its value. -/
structure State.Follows (parsers : Parsers) (schema : CommandSchema)
    (done : List Occurrence) (state : State) : Prop where
  seen : ∀ option ∈ schema.options,
    option.long ∈ state.seen ↔ ∃ occurrence ∈ done, Means schema occurrence option
  holds : ∀ option ∈ schema.options, ∃ value,
    Table.get? option.slot state.command.values = some value ∧
      Holds parsers schema option done value

private theorem State.Follows.start (hfollows : state.Follows parsers schema done)
    (hoption : option ∈ schema.options) (hflag : option.isFlag = false)
    (hlist : option.isList = true) :
    ∃ items, (if state.seen.contains option.long then state.command.value option.slot
        else .list []) = .list items ∧ Gathers parsers schema option done items := by
  by_cases hseen : option.long ∈ state.seen
  · rw [if_pos (by simpa using hseen)]
    obtain ⟨value, hvalue, hholds⟩ := hfollows.holds option hoption
    obtain ⟨items, rfl, hitems⟩ :=
      hholds.gathers hflag hlist ((hfollows.seen option hoption).mp hseen)
    exact ⟨items, by rw [Instance.value, hvalue, Option.getD_some], hitems⟩
  · rw [if_neg (by simpa using hseen)]
    refine ⟨[], rfl, gathers_nil fun mention hmention hmeans => ?_⟩
    exact hseen ((hfollows.seen option hoption).mpr ⟨mention, hmention, hmeans⟩)

theorem State.Follows.slotAfter (hfollows : state.Follows parsers schema done)
    (hbrings : Brings parsers schema occurrence option update) :
    ∃ value, state.slotAfter option update = .ok value ∧
      Holds parsers schema option (done ++ [occurrence]) value := by
  have hlast : occurrence ∈ done ++ [occurrence] :=
    List.mem_append_right _ List.mem_cons_self
  cases hbrings with
  | flag hmeans hflag => exact ⟨_, rfl, .flag hflag hlast hmeans⟩
  | scalar hmeans hflag hlist _ hconvert =>
      exact ⟨_, rfl, .scalar hflag hlist rfl hmeans
        (fun _ hlater => absurd hlater List.not_mem_nil) hconvert⟩
  | list hmeans hflag hlist _ hconvert =>
      obtain ⟨items, hstart, hitems⟩ := hfollows.start hmeans.mem hflag hlist
      refine ⟨_, by rw [State.slotAfter, hstart]; rfl, ?_⟩
      exact .list hflag hlist hlast hmeans (hitems.concat_take hmeans hconvert)

theorem State.Follows.apply (hwell : schema.WellFormed)
    (hfollows : state.Follows parsers schema done)
    (happly : Binding.apply parsers invocation schema state occurrence = .ok next) :
    next.Follows parsers schema (done ++ [occurrence]) := by
  have hnames := hwell.namesApart
  obtain ⟨target, update, value, hbrings, hvalue, hcommand, hseen⟩ :=
    brings_of_apply hnames happly
  have htarget := hbrings.means.mem
  refine ⟨fun option hoption => ?_, fun option hoption => ?_⟩
  · rw [hseen, State.mem_markSeen, hfollows.seen option hoption]
    constructor
    · rintro (⟨mention, hmention, hmeans⟩ | hlong)
      · exact ⟨mention, List.mem_append_left _ hmention, hmeans⟩
      · have hsame := hnames.eq_of_long hoption htarget (congrArg Text.lower hlong)
        exact ⟨occurrence, List.mem_append_right _ List.mem_cons_self,
          hsame ▸ hbrings.means⟩
    · rintro ⟨mention, hmention, hmeans⟩
      rcases List.mem_append.mp hmention with hmention | hmention
      · exact .inl ⟨mention, hmention, hmeans⟩
      · rw [List.mem_singleton.mp hmention] at hmeans
        exact .inr (congrArg OptionSchema.long (hmeans.unique hnames hbrings.means))
  · rw [hcommand, Instance.set]
    by_cases hslot : target.slot = option.slot
    · obtain rfl := hwell.eq_of_slot htarget hoption hslot
      obtain ⟨given, hgiven, hholds⟩ := hfollows.slotAfter hbrings
      obtain rfl := Except.ok.inj (hvalue.symm.trans hgiven)
      exact ⟨value, Table.get?_set_self _ _ _, hholds⟩
    · obtain ⟨old, hold, hholds⟩ := hfollows.holds option hoption
      refine ⟨old, by rw [Table.get?_set_of_ne (Ne.symm hslot), hold],
        hholds.concat ?_⟩
      intro hmeans
      exact hslot (congrArg OptionSchema.slot (hbrings.means.unique hnames hmeans))

theorem State.Follows.progress (hwell : schema.WellFormed)
    (hfollows : state.Follows parsers schema done)
    (hbrings : Brings parsers schema occurrence option update) :
    ∃ next, Binding.apply parsers invocation schema state occurrence = .ok next := by
  obtain ⟨value, hvalue, -⟩ := hfollows.slotAfter hbrings
  exact ⟨_, by rw [apply_of_brings hwell.namesApart hbrings, hvalue]; rfl⟩

theorem follows_new (hwell : schema.WellFormed) {fresh : Instance}
    (hnew : schema.newInstance = .ok fresh) :
    State.Follows parsers schema [] ⟨fresh, [], []⟩ := by
  refine ⟨fun option _ => ?_, fun option hoption => ?_⟩
  · constructor
    · exact fun hseen => absurd hseen List.not_mem_nil
    · rintro ⟨occurrence, hoccurrence, -⟩
      exact absurd hoccurrence List.not_mem_nil
  · refine ⟨option.default, ?_, .absent fun _ hmention =>
      absurd hmention List.not_mem_nil⟩
    obtain ⟨before, heir, after, hoptions, hslot, hlast⟩ :=
      exists_last_of_slot ⟨option, hoption, rfl⟩
    have hheir : heir ∈ schema.options :=
      hoptions ▸ List.mem_append_right _ List.mem_cons_self
    obtain rfl := hwell.eq_of_slot hheir hoption hslot
    rw [values_of_newInstance hnew]
    exact get?_defaults hoptions hlast

theorem sound_of_applyAll (hnames : schema.NamesApart)
    {occurrences : List Occurrence} {final : State}
    (happly : applyAll parsers invocation schema state occurrences = .ok final) :
    ∀ occurrence ∈ occurrences, ∀ fault,
      ¬Offends parsers invocation schema occurrence fault := by
  induction occurrences generalizing state with
  | nil => exact fun _ hmention => absurd hmention List.not_mem_nil
  | cons occurrence rest ih =>
      obtain ⟨next, hfirst, happly⟩ := exists_of_applyAll_cons happly
      refine List.forall_mem_cons.mpr ⟨fun fault hoffends => ?_, ih happly⟩
      rw [apply_of_offends hnames hoffends] at hfirst
      cases hfirst

private theorem State.Follows.applyAll (hwell : schema.WellFormed)
    (hfollows : state.Follows parsers schema done) {occurrences : List Occurrence}
    (hsound : ∀ occurrence ∈ occurrences, ∀ fault,
      ¬Offends parsers invocation schema occurrence fault) :
    ∃ final, Binding.applyAll parsers invocation schema state occurrences =
      .ok final := by
  induction occurrences generalizing done state with
  | nil => exact ⟨state, rfl⟩
  | cons occurrence rest ih =>
      rw [List.forall_mem_cons] at hsound
      rcases brings_or_offends parsers invocation schema occurrence with
        ⟨option, update, hbrings⟩ | ⟨fault, hoffends⟩
      · obtain ⟨next, hnext⟩ := hfollows.progress hwell hbrings
        obtain ⟨final, hfinal⟩ := ih (hfollows.apply hwell hnext) hsound.2
        exact ⟨final, by rw [Binding.applyAll, hnext]; exact hfinal⟩
      · exact absurd hoffends (hsound.1 fault)

private theorem applyAll_append {before middle : State} {first : List Occurrence}
    (hfirst : applyAll parsers invocation schema before first = .ok middle)
    (rest : List Occurrence) :
    applyAll parsers invocation schema before (first ++ rest) =
      applyAll parsers invocation schema middle rest := by
  induction first generalizing before with
  | nil => cases hfirst; rfl
  | cons occurrence others ih =>
      obtain ⟨next, hnext, hothers⟩ := exists_of_applyAll_cons hfirst
      rw [List.cons_append, applyAll, hnext]
      exact ih hothers

/-- A fault comes from one mention, and those before it have been applied. -/
theorem applyAll_error {occurrences : List Occurrence} {fault : Fault}
    (happly : applyAll parsers invocation schema state occurrences = .error fault) :
    ∃ before occurrence after middle, occurrences = before ++ occurrence :: after ∧
      applyAll parsers invocation schema state before = .ok middle ∧
      apply parsers invocation schema middle occurrence = .error fault := by
  induction occurrences generalizing state with
  | nil => cases happly
  | cons occurrence rest ih =>
      rw [applyAll] at happly
      cases hfirst : apply parsers invocation schema state occurrence with
      | error other =>
          rw [hfirst] at happly
          cases happly
          exact ⟨[], occurrence, rest, state, rfl, rfl, hfirst⟩
      | ok next =>
          rw [hfirst] at happly
          obtain ⟨before, offending, after, middle, rfl, hbefore, herror⟩ :=
            ih happly
          refine ⟨occurrence :: before, offending, after, middle, rfl, ?_, herror⟩
          rw [applyAll, hfirst]
          exact hbefore

theorem State.Follows.missing_iff
    (hfollows : state.Follows parsers schema invocation.options)
    (hoption : option ∈ schema.options) :
    (option.required && !state.seen.contains option.long) = true ↔
      Missing invocation schema option := by
  have hseen := not_congr (hfollows.seen option hoption)
  simp only [not_exists, not_and] at hseen
  simp [Missing, hseen]

theorem State.Follows.firstMissing
    (hfollows : state.Follows parsers schema invocation.options) :
    Binding.firstMissing schema state = some option ↔
      ∃ before after, schema.options = before ++ option :: after ∧
        (∀ earlier ∈ before, ¬Missing invocation schema earlier) ∧
        Missing invocation schema option := by
  rw [Binding.firstMissing, List.find?_eq_some_iff_append]
  constructor
  · rintro ⟨hrequired, before, after, hoptions, hbefore⟩
    refine ⟨before, after, hoptions, fun earlier hearlier hmissing => ?_, ?_⟩
    · have hmember : earlier ∈ schema.options :=
        hoptions ▸ List.mem_append_left _ hearlier
      have hfalse := hbefore earlier hearlier
      rw [(hfollows.missing_iff hmember).mpr hmissing] at hfalse
      cases hfalse
    · have hmember : option ∈ schema.options :=
        hoptions ▸ List.mem_append_right _ List.mem_cons_self
      exact (hfollows.missing_iff hmember).mp hrequired
  · rintro ⟨before, after, hoptions, hbefore, hmissing⟩
    have hmember : option ∈ schema.options :=
      hoptions ▸ List.mem_append_right _ List.mem_cons_self
    refine ⟨(hfollows.missing_iff hmember).mpr hmissing, before, after, hoptions,
      fun earlier hearlier => ?_⟩
    have hmember : earlier ∈ schema.options :=
      hoptions ▸ List.mem_append_left _ hearlier
    rw [Bool.not_eq_true', ← Bool.not_eq_true, hfollows.missing_iff hmember]
    exact hbefore earlier hearlier

theorem follows_of_applyAll (hwell : schema.WellFormed) {fresh : Instance}
    {final : State} (hnew : schema.newInstance = .ok fresh)
    {occurrences : List Occurrence}
    (happly : applyAll parsers invocation schema ⟨fresh, [], []⟩ occurrences =
      .ok final) : final.Follows parsers schema occurrences :=
  applyAll_induction (State.Follows.apply hwell) (follows_new hwell hnew) happly

theorem refused_of_bindTo (hwell : schema.WellFormed) {fault : Fault}
    (hbind : bindTo parsers invocation schema = .error fault) :
    Refused parsers invocation schema fault := by
  obtain ⟨fresh, hnew⟩ := hwell.made
  unfold bindTo at hbind
  simp only [hnew] at hbind
  cases happly : applyAll parsers invocation schema ⟨fresh, [], []⟩
    invocation.options with
  | error other =>
      rw [happly] at hbind
      cases hbind
      obtain ⟨before, occurrence, after, middle, hoccurrences, hbefore, herror⟩ :=
        applyAll_error happly
      refine .mention hoccurrences (sound_of_applyAll hwell.namesApart hbefore) ?_
      rcases brings_or_offends parsers invocation schema occurrence with
        ⟨option, update, hbrings⟩ | ⟨cause, hoffends⟩
      · obtain ⟨next, hnext⟩ :=
          (follows_of_applyAll hwell hnew hbefore).progress hwell hbrings
        rw [hnext] at herror
        cases herror
      · rw [apply_of_offends hwell.namesApart hoffends] at herror
        cases herror
        exact hoffends
  | ok final =>
      simp only [happly] at hbind
      cases hmissing : firstMissing schema final with
      | none => simp only [hmissing] at hbind; cases hbind
      | some option =>
          simp only [hmissing] at hbind
          cases hbind
          obtain ⟨before, after, hoptions, hbefore, hmiss⟩ :=
            (follows_of_applyAll hwell hnew happly).firstMissing.mp hmissing
          exact .missing (sound_of_applyAll hwell.namesApart happly) hoptions
            hbefore hmiss

private theorem bindTo_of_refused (hwell : schema.WellFormed) {fault : Fault}
    (hrefused : Refused parsers invocation schema fault) :
    bindTo parsers invocation schema = .error fault := by
  obtain ⟨fresh, hnew⟩ := hwell.made
  have hstart : State.Follows parsers schema [] ⟨fresh, [], []⟩ :=
    follows_new hwell hnew
  unfold bindTo
  simp only [hnew]
  cases hrefused with
  | @mention occurrence before after _ hoccurrences hbefore hoffends =>
      obtain ⟨middle, hmiddle⟩ := hstart.applyAll hwell hbefore
      rw [hoccurrences, applyAll_append hmiddle, applyAll,
        apply_of_offends hwell.namesApart hoffends]
  | @missing option before after hsound hoptions hbefore hmissing =>
      obtain ⟨final, hfinal⟩ := hstart.applyAll hwell hsound
      have hfirst := (follows_of_applyAll hwell hnew hfinal).firstMissing.mpr
        ⟨before, after, hoptions, hbefore, hmissing⟩
      simp only [hfinal, hfirst]

private theorem element_not_cancelled (hpure : parsers.Pure) {raw message : String} :
    Conversion.element parsers option raw ≠ .error (.cancelled message) := by
  intro helement
  by_cases hkind : option.kind = .structured
  · unfold Conversion.element Conversion.scalar at helement
    simp only [hkind, Conversion.toStructured] at helement
    split at helement
    · next parse hparse =>
        obtain ⟨name, -, hget⟩ := Option.bind_eq_some_iff.mp hparse
        exact hpure name parse hget raw message helement
    · cases helement
  · exact Conversion.element_error hkind helement message rfl

private theorem convert_not_cancelled (hpure : parsers.Pure) {quoted : Bool}
    {raw message : String} :
    Conversion.convert parsers option quoted raw ≠ .error (.cancelled message) := by
  intro hconvert
  unfold Conversion.convert at hconvert
  split at hconvert
  · cases hitems : (Conversion.elements quoted raw).mapM
      (Conversion.element parsers option) with
    | ok items => rw [hitems] at hconvert; cases hconvert
    | error cause =>
        rw [hitems] at hconvert
        cases hconvert
        obtain ⟨item, -, hitem⟩ := mapM_error hitems
        exact element_not_cancelled hpure hitem
  · exact element_not_cancelled hpure hconvert

private theorem Refused.ofKind (hpure : parsers.Pure) {fault : Fault}
    (hrefused : Refused parsers invocation schema fault) : fault.OfKind .bind := by
  cases hrefused with
  | missing => exact ⟨_, rfl, rfl⟩
  | mention _ _ hoffends =>
      cases hoffends with
      | unknown | flagWithValue | valueMissing | notConverted => exact ⟨_, rfl, rfl⟩
      | cancelled _ _ _ hconvert =>
          exact absurd hconvert (convert_not_cancelled hpure)

private theorem reported_iff_of_pure (hwell : schema.WellFormed)
    (hpure : parsers.Pure) :
    (∃ fault, bindTo parsers invocation schema = .error fault ∧ fault.OfKind .bind) ↔
      (∃ occurrence ∈ invocation.options, ∃ fault,
        Offends parsers invocation schema occurrence fault) ∨
      ∃ option ∈ schema.options, Missing invocation schema option := by
  constructor
  · rintro ⟨fault, hbind, -⟩
    cases refused_of_bindTo hwell hbind with
    | mention hoccurrences _ hoffends =>
        exact .inl ⟨_, hoccurrences ▸ List.mem_append_right _ List.mem_cons_self,
          _, hoffends⟩
    | missing _ hoptions _ hmissing =>
        exact .inr ⟨_, hoptions ▸ List.mem_append_right _ List.mem_cons_self,
          hmissing⟩
  · intro hfaulty
    cases hbind : bindTo parsers invocation schema with
    | error fault => exact ⟨fault, rfl, (refused_of_bindTo hwell hbind).ofKind hpure⟩
    | ok found =>
        obtain ⟨fresh, final, hnew, happly, hnone, -⟩ := applyAll_of_bindTo hbind
        rcases hfaulty with ⟨occurrence, hoccurrence, fault, hoffends⟩ | ⟨option,
          hoption, hmissing⟩
        · exact absurd hoffends (sound_of_applyAll hwell.namesApart happly occurrence
            hoccurrence fault)
        · have hfollows := follows_of_applyAll hwell hnew happly
          exact absurd ((hfollows.missing_iff hoption).mpr hmissing)
            (List.find?_eq_none.mp hnone option hoption)

private theorem wellFormed_of_catalog {tied : Bool}
    {declaration : CommandDeclaration} (hmember : declaration ∈ Catalog.all tied) :
    ∃ schema, declaration.toSchema = .ok schema ∧ schema.WellFormed := by
  have hall : (Catalog.all tied).all fun declaration =>
      match declaration.toSchema with
      | .error _ => false
      | .ok schema => decide (schema.options.map OptionSchema.slot).Nodup := by
    cases tied <;> decide +kernel
  have hthis := List.all_eq_true.mp hall declaration hmember
  cases hschema : declaration.toSchema with
  | error error => rw [hschema] at hthis; cases hthis
  | ok schema =>
      rw [hschema] at hthis
      obtain ⟨fresh, hnew, -⟩ :=
        newInstance_settled (Catalog.settled hmember hschema)
      exact ⟨schema, rfl, (CommandDeclaration.toSchema_ok hschema).2.2,
        of_decide_eq_true hthis, fresh, hnew⟩

/-- Binding keeps to the rules, whatever the command, the line and the parsers are.
The commands of the shell are all well formed. -/
theorem bindTo_follows_rules :
    (∀ (parsers : Parsers) (invocation : Invocation) (schema : CommandSchema),
      schema.WellFormed →
      FollowsRules parsers invocation schema (bindTo parsers invocation schema)) ∧
    ∀ tied, ∀ declaration ∈ Catalog.all tied,
      ∃ schema, declaration.toSchema = .ok schema ∧ schema.WellFormed := by
  refine ⟨fun parsers invocation schema hwell => ?_, fun tied declaration hmember =>
    wellFormed_of_catalog hmember⟩
  refine ⟨fun fault => ⟨refused_of_bindTo hwell, bindTo_of_refused hwell⟩,
    reported_iff_of_pure hwell, fun bound note hbind => ?_⟩
  obtain ⟨fresh, final, hnew, happly, -, hcommand⟩ := applyAll_of_bindTo hbind
  rw [hcommand]
  exact (follows_of_applyAll hwell hnew happly).holds

/-! A flag that takes a word by mistake, names in other letters, repeated mentions of
a value and of a list, and a line with two mistakes and an option that is missing. -/

def tagOption : OptionSchema :=
  { long := "tag"
    short := some 't'
    kind := .string
    isList := true
    slot := "tag"
    default := .list [.text "old"] }

def mixedSchema : CommandSchema :=
  { name := "tool"
    description := ""
    options :=
      [ { long := "verbose"
          short := some 'v'
          kind := .bool
          slot := "verbose"
          default := .bool false },
        { long := "count"
          short := some 'n'
          kind := .int
          slot := "count"
          default := .int 10 },
        { long := "number"
          short := some 'N'
          kind := .int
          slot := "number"
          default := .int 20 },
        tagOption,
        { long := "to", required := true, kind := .string, slot := "to",
          default := .null } ]
    typeName := "Tool"
    factory := .itself
    program := .actions []
    hook := .none }

theorem wellFormed_mixedSchema : mixedSchema.WellFormed :=
  ⟨by decide +kernel, by decide, _, rfl⟩

theorem bindTo_follows_rules_mixed :
    mixedSchema.WellFormed ∧
      (∃ invocation bound note,
        Pipeline.parse "tool -V x --Tag a,b -n 1 --to=me -t \"c,d\" --COUNT=2" =
          .ok (some [invocation]) ∧
        bindTo [] invocation mixedSchema = .ok (bound, note) ∧
        FollowsRules [] invocation mixedSchema (.ok (bound, note)) ∧
        bound.command.values = [("verbose", .bool true), ("count", .int 2),
          ("number", .int 20), ("tag", .list [.text "a", .text "b", .text "c,d"]),
          ("to", .text "me")]) ∧
      ∃ invocation, Pipeline.parse "tool -n 1 --count=x --bogus" =
        .ok (some [invocation]) ∧
        FollowsRules [] invocation mixedSchema (.error (refuse invocation mixedSchema
          (.notConverted "x" "count" "cannot convert 'x' to int"))) := by
  have hrules := bindTo_follows_rules.1
  refine ⟨wellFormed_mixedSchema, ?_, ?_⟩
  · have hruns : ∃ invocation,
        Pipeline.parse "tool -V x --Tag a,b -n 1 --to=me -t \"c,d\" --COUNT=2" =
          .ok (some [invocation]) ∧ ∃ bound note,
          bindTo [] invocation mixedSchema = .ok (bound, note) ∧
          bound.command.values = [("verbose", .bool true), ("count", .int 2),
            ("number", .int 20), ("tag", .list [.text "a", .text "b", .text "c,d"]),
            ("to", .text "me")] :=
      ⟨_, rfl, _, _, rfl, rfl⟩
    obtain ⟨invocation, hparse, bound, note, hbind, hvalues⟩ := hruns
    exact ⟨invocation, bound, note, hparse, hbind,
      hbind ▸ hrules [] invocation mixedSchema wellFormed_mixedSchema, hvalues⟩
  · have hruns : ∃ invocation, Pipeline.parse "tool -n 1 --count=x --bogus" =
        .ok (some [invocation]) ∧ bindTo [] invocation mixedSchema =
          .error (refuse invocation mixedSchema
            (.notConverted "x" "count" "cannot convert 'x' to int")) :=
      ⟨_, rfl, rfl⟩
    obtain ⟨invocation, hparse, hbind⟩ := hruns
    exact ⟨invocation, hparse,
      hbind ▸ hrules [] invocation mixedSchema wellFormed_mixedSchema⟩

end Binding

end PipeShell
