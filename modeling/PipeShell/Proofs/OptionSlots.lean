import PipeShell.Proofs.Arguments
import PipeShell.Proofs.OptionNames

namespace PipeShell.Binding

/-- What a mention does to the slot of its option. -/
inductive Update where
  | replace (value : Value)
  | append (items : List Value)

/-- What a mention brings to the option that it means. -/
inductive Brings (parsers : Parsers) (schema : CommandSchema)
    (occurrence : Occurrence) :
    OptionSchema → Update → Prop
  | flag {option : OptionSchema} (hmeans : Means schema occurrence option)
      (hflag : option.isFlag = true)
      (hvalue : occurrence.hasValue = true → occurrence.spaced = true) :
      Brings parsers schema occurrence option (.replace (.bool true))
  | scalar {option : OptionSchema} {value : Value}
      (hmeans : Means schema occurrence option) (hflag : option.isFlag = false)
      (hlist : option.isList = false) (hvalue : occurrence.hasValue = true)
      (hconvert : Conversion.element parsers option (occurrence.value.getD "") =
        .ok value) :
      Brings parsers schema occurrence option (.replace value)
  | list {option : OptionSchema} {items : List Value}
      (hmeans : Means schema occurrence option) (hflag : option.isFlag = false)
      (hlist : option.isList = true) (hvalue : occurrence.hasValue = true)
      (hconvert : (Conversion.elements occurrence.quoted
        (occurrence.value.getD "")).mapM (Conversion.element parsers option) =
          .ok items) :
      Brings parsers schema occurrence option (.append items)

/-- A mention that cannot be bound, and the fault that comes of it. -/
inductive Offends (parsers : Parsers) (invocation : Invocation)
    (schema : CommandSchema) (occurrence : Occurrence) : Fault → Prop
  | unknown (hnone : ∀ option, ¬Means schema occurrence option) :
      Offends parsers invocation schema occurrence
        (refuse invocation schema (.unknownOption occurrence.display))
  | flagWithValue {option : OptionSchema} (hmeans : Means schema occurrence option)
      (hflag : option.isFlag = true) (hvalue : occurrence.hasValue = true)
      (hattached : occurrence.spaced = false) :
      Offends parsers invocation schema occurrence
        (refuse invocation schema (.flagWithValue option.long))
  | valueMissing {option : OptionSchema} (hmeans : Means schema occurrence option)
      (hflag : option.isFlag = false) (hvalue : occurrence.hasValue = false) :
      Offends parsers invocation schema occurrence
        (refuse invocation schema (.valueMissing option.long))
  | notConverted {option : OptionSchema} {cause : Fault}
      (hmeans : Means schema occurrence option) (hflag : option.isFlag = false)
      (hvalue : occurrence.hasValue = true)
      (hconvert : Conversion.convert parsers option occurrence.quoted
        (occurrence.value.getD "") = .error cause)
      (hcause : ∀ message, cause ≠ .cancelled message) :
      Offends parsers invocation schema occurrence (refuse invocation schema
        (.notConverted (occurrence.value.getD "") option.long cause.message))
  /-- A parser of the host may cancel the line instead of reading a value. -/
  | cancelled {option : OptionSchema} {message : String}
      (hmeans : Means schema occurrence option)
      (hflag : option.isFlag = false) (hvalue : occurrence.hasValue = true)
      (hconvert : Conversion.convert parsers option occurrence.quoted
        (occurrence.value.getD "") = .error (.cancelled message)) :
      Offends parsers invocation schema occurrence (.cancelled message)

variable {parsers : Parsers} {invocation : Invocation} {schema : CommandSchema}
  {occurrence : Occurrence} {option : OptionSchema} {update : Update}
    {state next : State}

theorem Brings.means (hbrings : Brings parsers schema occurrence option update) :
    Means schema occurrence option := by
  cases hbrings with
  | flag hmeans | scalar hmeans | list hmeans => exact hmeans

theorem convert_eq_ok_iff {quoted : Bool} {raw : String} {value : Value} :
    Conversion.convert parsers option quoted raw = .ok value ↔
      (option.isList = false ∧ Conversion.element parsers option raw = .ok value) ∨
        (option.isList = true ∧ ∃ items, value = .list items ∧
          (Conversion.elements quoted raw).mapM (Conversion.element parsers option) =
            .ok items) := by
  unfold Conversion.convert
  cases option.isList with
  | false => simp
  | true =>
      cases (Conversion.elements quoted raw).mapM
        (Conversion.element parsers option) with
      | error fault => simp [Except.map]
      | ok items => simp [Except.map, eq_comm]

theorem brings_or_offends (parsers : Parsers) (invocation : Invocation)
    (schema : CommandSchema) (occurrence : Occurrence) :
    (∃ option update, Brings parsers schema occurrence option update) ∨
      ∃ fault, Offends parsers invocation schema occurrence fault := by
  by_cases hknown : ∃ option, Means schema occurrence option
  · obtain ⟨option, hmeans⟩ := hknown
    cases hflag : option.isFlag with
    | true =>
        cases hvalue : occurrence.hasValue with
        | false => exact .inl ⟨option, _, .flag hmeans hflag (by simp [hvalue])⟩
        | true =>
            cases hspaced : occurrence.spaced with
            | true => exact .inl ⟨option, _, .flag hmeans hflag fun _ => hspaced⟩
            | false => exact .inr ⟨_, .flagWithValue hmeans hflag hvalue hspaced⟩
    | false =>
        cases hvalue : occurrence.hasValue with
        | false => exact .inr ⟨_, .valueMissing hmeans hflag hvalue⟩
        | true =>
            cases hconvert : Conversion.convert parsers option occurrence.quoted
                (occurrence.value.getD "") with
            | ok value =>
                rcases convert_eq_ok_iff.mp hconvert with
                  ⟨hlist, helement⟩ | ⟨hlist, items, -, hitems⟩
                · exact .inl ⟨option, _, .scalar hmeans hflag hlist hvalue helement⟩
                · exact .inl ⟨option, _, .list hmeans hflag hlist hvalue hitems⟩
            | error cause =>
                by_cases hcancelled : ∃ message, cause = .cancelled message
                · obtain ⟨message, rfl⟩ := hcancelled
                  exact .inr ⟨_, .cancelled hmeans hflag hvalue hconvert⟩
                · exact .inr ⟨_, .notConverted hmeans hflag hvalue hconvert
                    fun message hcause =>
                    hcancelled ⟨message, hcause⟩⟩
  · exact .inr ⟨_, .unknown fun option hmeans => hknown ⟨option, hmeans⟩⟩

def State.slotAfter (state : State) (option : OptionSchema) :
    Update → Except Fault Value
  | .replace value => .ok value
  | .append items =>
      extend (if state.seen.contains option.long then state.command.value option.slot
        else .list []) items

theorem apply_of_brings (hnames : schema.NamesApart)
    (hbrings : Brings parsers schema occurrence option update) (state : State) :
    apply parsers invocation schema state occurrence =
      (state.slotAfter option update).map fun value =>
        ({ state with
          command := state.command.set option.slot value
          returned := state.returned ++ (givenBack schema occurrence).toList
            }).markSeen
            option.long := by
  have hfound := findOption_of_means hnames hbrings.means
  unfold apply givenBack
  cases hbrings with
  | flag _ hflag hvalue =>
      have hfits : (occurrence.hasValue && !occurrence.spaced) = false := by
        cases hhas : occurrence.hasValue with
        | false => rfl
        | true => simp [hvalue hhas]
      simp only [hfound, hflag, if_true, applyFlag, hfits, Bool.false_eq_true,
        if_false, Option.any_some, Bool.true_and]
      cases occurrence.hasValue with
      | true => rfl
      | false => simp [State.slotAfter, Except.map]
  | scalar _ hflag hlist hvalue hconvert =>
      have hok : Conversion.convert parsers option occurrence.quoted
          (occurrence.value.getD "") = _ :=
        convert_eq_ok_iff.mpr (.inl ⟨hlist, hconvert⟩)
      simp only [hfound, hflag, applyValue, hvalue, Bool.not_true,
        Bool.false_eq_true, if_false, hok, store, hlist, Option.any_some,
        Bool.false_and, Option.toList_none, List.append_nil]
      rfl
  | list _ hflag hlist hvalue hconvert =>
      have hok := convert_eq_ok_iff.mpr (.inr ⟨hlist, _, rfl, hconvert⟩)
      simp only [hfound, hflag, applyValue, hvalue, Bool.not_true,
        Bool.false_eq_true, if_false, hok, store, hlist, State.slotAfter,
        Option.any_some, Bool.false_and, Option.toList_none, List.append_nil]
      split
      · next hextend => rw [hextend]; rfl
      · next hextend => rw [hextend]; rfl

theorem apply_of_offends (hnames : schema.NamesApart) {fault : Fault}
    (hoffends : Offends parsers invocation schema occurrence fault) (state : State) :
    apply parsers invocation schema state occurrence = .error fault := by
  unfold apply
  cases hoffends with
  | unknown hnone => rw [(findOption_eq_none_iff hnames).mpr hnone]
  | flagWithValue hmeans hflag hvalue hattached =>
      simp only [findOption_of_means hnames hmeans, hflag, if_true, applyFlag,
        hvalue, hattached, Bool.not_false, Bool.and_self]
  | valueMissing hmeans hflag hvalue =>
      simp only [findOption_of_means hnames hmeans, hflag, applyValue, hvalue,
        Bool.not_false, Bool.false_eq_true, if_false, if_true]
  | notConverted hmeans hflag hvalue hconvert hcause =>
      simp only [findOption_of_means hnames hmeans, hflag, applyValue, hvalue,
        Bool.not_true, Bool.false_eq_true, if_false, hconvert]
  | cancelled hmeans hflag hvalue hconvert =>
      simp only [findOption_of_means hnames hmeans, hflag, applyValue, hvalue,
        Bool.not_true, Bool.false_eq_true, if_false, hconvert]

/-- Everything that a mention which is bound has done. -/
theorem brings_of_apply (hnames : schema.NamesApart)
    (happly : apply parsers invocation schema state occurrence = .ok next) :
    ∃ option update value, Brings parsers schema occurrence option update ∧
      state.slotAfter option update = .ok value ∧
      next.command = state.command.set option.slot value ∧
      next.seen = (state.markSeen option.long).seen := by
  rcases brings_or_offends parsers invocation schema occurrence with
    ⟨option, update, hbrings⟩ | ⟨fault, hoffends⟩
  · rw [apply_of_brings hnames hbrings] at happly
    cases hvalue : state.slotAfter option update with
    | error fault => rw [hvalue] at happly; cases happly
    | ok value =>
        rw [hvalue] at happly
        cases happly
        exact ⟨option, update, value, hbrings, hvalue, rfl, rfl⟩
  · rw [apply_of_offends hnames hoffends] at happly
    cases happly

theorem exists_of_applyAll_cons {rest : List Occurrence} {final : State}
    (happly : applyAll parsers invocation schema state (occurrence :: rest) =
      .ok final) :
    ∃ next, apply parsers invocation schema state occurrence = .ok next ∧
      applyAll parsers invocation schema next rest = .ok final := by
  rw [applyAll] at happly
  cases hfirst : apply parsers invocation schema state occurrence with
  | error fault => rw [hfirst] at happly; cases happly
  | ok next =>
      rw [hfirst] at happly
      exact ⟨next, rfl, happly⟩

/-- What every mention carries from the mentions before it to those up to it, all of
them carry. -/
theorem applyAll_induction {P : List Occurrence → State → Prop}
    (hstep : ∀ {done : List Occurrence} {occurrence : Occurrence}
        {state next : State},
      P done state → apply parsers invocation schema state occurrence = .ok next →
        P (done ++ [occurrence]) next)
    {done occurrences : List Occurrence} {final : State} (hstart : P done state)
    (happly : applyAll parsers invocation schema state occurrences = .ok final) :
    P (done ++ occurrences) final := by
  induction occurrences generalizing done state with
  | nil =>
      cases happly
      rw [List.append_nil]
      exact hstart
  | cons occurrence rest ih =>
      obtain ⟨next, hfirst, happly⟩ := exists_of_applyAll_cons happly
      have hrest := ih (hstep hstart hfirst) happly
      rwa [List.append_assoc, List.singleton_append] at hrest

theorem applyAll_of_bindTo {bound : BoundCommand} {note : Journal.Note}
    (hbind : bindTo parsers invocation schema = .ok (bound, note)) :
    ∃ fresh final, schema.newInstance = .ok fresh ∧
      applyAll parsers invocation schema ⟨fresh, [], []⟩ invocation.options =
        .ok final ∧
      firstMissing schema final = none ∧ bound.command = final.command := by
  unfold bindTo at hbind
  cases hnew : schema.newInstance with
  | error fault => rw [hnew] at hbind; cases hbind
  | ok fresh =>
      simp only [hnew] at hbind
      cases happly : applyAll parsers invocation schema ⟨fresh, [], []⟩
        invocation.options with
      | error fault => rw [happly] at hbind; cases hbind
      | ok final =>
          simp only [happly] at hbind
          cases hmissing : firstMissing schema final with
          | some option => simp only [hmissing] at hbind; cases hbind
          | none =>
              simp only [hmissing] at hbind
              cases hbind
              exact ⟨fresh, final, rfl, happly, hmissing, rfl⟩

theorem values_of_newInstance {fresh : Instance}
    (hnew : schema.newInstance = .ok fresh) :
    fresh.values = schema.defaults := by
  unfold CommandSchema.newInstance at hnew
  cases hfactory : schema.factory with
  | itself | derived =>
      rw [hfactory] at hnew
      cases hnew
      rfl
  | raises fault =>
      rw [hfactory] at hnew
      cases hnew

private theorem get?_foldl_of_ne {slot : String} {options : List OptionSchema}
    (hother : ∀ option ∈ options, option.slot ≠ slot) (values : Table Value) :
    Table.get? slot (options.foldl
        (fun values option => Table.set option.slot option.default values) values) =
      Table.get? slot values := by
  induction options generalizing values with
  | nil => rfl
  | cons option rest ih =>
      rw [List.forall_mem_cons] at hother
      rw [List.foldl_cons, ih hother.2, Table.get?_set_of_ne (Ne.symm hother.1)]

/-- A slot begins with the default of the last option that has it. -/
theorem get?_defaults {before after : List OptionSchema}
    (hoptions : schema.options = before ++ option :: after)
    (hlast : ∀ later ∈ after, later.slot ≠ option.slot) :
    Table.get? option.slot schema.defaults = some option.default := by
  rw [CommandSchema.defaults, hoptions, List.foldl_append, List.foldl_cons,
    get?_foldl_of_ne hlast, Table.get?_set_self]

theorem exists_last_of_slot {slot : String} {options : List OptionSchema}
    (hsome : ∃ option ∈ options, option.slot = slot) :
    ∃ before heir after, options = before ++ heir :: after ∧ heir.slot = slot ∧
      ∀ later ∈ after, later.slot ≠ slot := by
  induction options with
  | nil =>
      obtain ⟨option, hoption, -⟩ := hsome
      exact absurd hoption List.not_mem_nil
  | cons first rest ih =>
      by_cases hlater : ∃ later ∈ rest, later.slot = slot
      · obtain ⟨before, heir, after, hrest, hslot, hlast⟩ := ih hlater
        exact ⟨first :: before, heir, after, by rw [hrest, List.cons_append],
          hslot, hlast⟩
      · have hnone : ∀ later ∈ rest, later.slot ≠ slot := fun later hmember hslot =>
          hlater ⟨later, hmember, hslot⟩
        obtain ⟨option, hoption, hslot⟩ := hsome
        rcases List.mem_cons.mp hoption with rfl | hoption
        · exact ⟨[], option, rest, rfl, hslot, hnone⟩
        · exact absurd hslot (hnone option hoption)

/-- A value that shows an update: the value itself, or a list that ends in the
items. -/
def Update.Shows : Update → Value → Prop
  | .replace value, shown => shown = value
  | .append items, shown => ∃ front, shown = .list (front ++ items)

private theorem shows_of_slotAfter {value : Value}
    (hvalue : state.slotAfter option update = .ok value) :
    update.Shows value := by
  cases update with
  | replace given =>
      cases hvalue
      rfl
  | append items =>
      rw [State.slotAfter] at hvalue
      unfold extend at hvalue
      split at hvalue
      · cases hvalue
        exact ⟨_, rfl⟩
      · cases hvalue

/-- What the mentions leave under a slot: the default of the last option that has the
slot, or what the last mention of such an option has written. -/
inductive LeftIn (parsers : Parsers) (schema : CommandSchema)
    (occurrences : List Occurrence) (slot : String) : Value → Prop
  | default {heir : OptionSchema} {before after : List OptionSchema}
      (huntouched : ∀ occurrence ∈ occurrences, ∀ option,
        Means schema occurrence option → option.slot ≠ slot)
      (hoptions : schema.options = before ++ heir :: after)
      (hslot : heir.slot = slot) (hlast : ∀ later ∈ after, later.slot ≠ slot) :
      LeftIn parsers schema occurrences slot heir.default
  | written {occurrence : Occurrence} {before after : List Occurrence}
      {option : OptionSchema} {update : Update} {value : Value}
      (hoccurrences : occurrences = before ++ occurrence :: after)
      (hbrings : Brings parsers schema occurrence option update)
      (hslot : option.slot = slot)
      (hlast : ∀ later ∈ after, ∀ other, Means schema later other →
        other.slot ≠ slot) (hshows : update.Shows value) :
          LeftIn parsers schema occurrences slot value

private theorem LeftIn.concat {occurrences : List Occurrence} {slot : String}
    {value : Value} (hleft : LeftIn parsers schema occurrences slot value)
    (hother : ∀ option, Means schema occurrence option → option.slot ≠ slot) :
    LeftIn parsers schema (occurrences ++ [occurrence]) slot value := by
  cases hleft with
  | default huntouched hoptions hslot hlast =>
      refine .default ?_ hoptions hslot hlast
      intro mention hmention
      rcases List.mem_append.mp hmention with hmention | hmention
      · exact huntouched mention hmention
      · rw [List.mem_singleton.mp hmention]
        exact hother
  | written hoccurrences hbrings hslot hlast hshows =>
      rw [hoccurrences, List.append_assoc, List.cons_append]
      refine .written rfl hbrings hslot ?_ hshows
      intro later hlater
      rcases List.mem_append.mp hlater with hlater | hlater
      · exact hlast later hlater
      · rw [List.mem_singleton.mp hlater]
        exact hother

/-- Every slot of an option has a value that the mentions account for. -/
def State.AccountedFor (parsers : Parsers) (schema : CommandSchema)
    (occurrences : List Occurrence) (state : State) : Prop :=
  ∀ option ∈ schema.options, ∃ value,
    Table.get? option.slot state.command.values = some value ∧
      LeftIn parsers schema occurrences option.slot value

theorem accountedFor_new {fresh : Instance} (hnew : schema.newInstance = .ok fresh) :
    State.AccountedFor parsers schema [] ⟨fresh, [], []⟩ := by
  intro option hoption
  obtain ⟨before, heir, after, hoptions, hslot, hlast⟩ :=
    exists_last_of_slot ⟨option, hoption, rfl⟩
  refine ⟨heir.default, ?_,
    .default (fun _ hmember => absurd hmember List.not_mem_nil) hoptions hslot hlast⟩
  rw [← hslot] at hlast ⊢
  rw [values_of_newInstance hnew]
  exact get?_defaults hoptions hlast

private theorem State.AccountedFor.apply (hnames : schema.NamesApart)
    {done : List Occurrence} (haccounted : state.AccountedFor parsers schema done)
    (happly : Binding.apply parsers invocation schema state occurrence = .ok next) :
    next.AccountedFor parsers schema (done ++ [occurrence]) := by
  obtain ⟨target, update, value, hbrings, hvalue, hcommand, -⟩ :=
    brings_of_apply hnames happly
  intro option hoption
  rw [hcommand, Instance.set]
  by_cases hslot : target.slot = option.slot
  · refine ⟨value, by rw [hslot, Table.get?_set_self], ?_⟩
    exact .written rfl hbrings hslot (fun _ hmember =>
      absurd hmember List.not_mem_nil)
      (shows_of_slotAfter hvalue)
  · obtain ⟨old, hold, hleft⟩ := haccounted option hoption
    refine ⟨old, by rw [Table.get?_set_of_ne (Ne.symm hslot), hold], hleft.concat ?_⟩
    intro other hother
    rwa [← hbrings.means.unique hnames hother]

/-- The slot of an option without a mention has what the options that share the slot
leave there. If no other option shares it, that is the default of the option. -/
theorem bindTo_absent {registry registered : Registry} {registrant : Registrant}
    {notes : List Journal.Note} {bound : BoundCommand} {note : Journal.Note}
    (hregister : registry.register registrant = .ok (schema, registered, notes))
    (hbind : bindTo parsers invocation schema = .ok (bound, note))
    (hoption : option ∈ schema.options)
    (habsent : ∀ occurrence ∈ invocation.options, ¬Means schema occurrence option) :
    ∃ value, Table.get? option.slot bound.command.values = some value ∧
      LeftIn parsers schema invocation.options option.slot value ∧
      ((∀ other ∈ schema.options, other.slot = option.slot → other = option) →
        value = option.default) := by
  obtain ⟨-, declaration, hschema⟩ := Registry.toSchema_of_register hregister
  have hnames := CommandDeclaration.namesApart hschema
  obtain ⟨fresh, final, hnew, happly, -, hcommand⟩ := applyAll_of_bindTo hbind
  have haccounted : final.AccountedFor parsers schema invocation.options :=
    applyAll_induction (State.AccountedFor.apply hnames)
      (accountedFor_new hnew) happly
  obtain ⟨value, hvalue, hleft⟩ := haccounted option hoption
  refine ⟨value, by rw [hcommand, hvalue], hleft, fun halone => ?_⟩
  cases hleft with
  | default _ hoptions hslot _ =>
      have hheir := halone _ (hoptions ▸ List.mem_append_right _ List.mem_cons_self)
        hslot
      rw [hheir]
  | written hoccurrences hbrings hslot _ _ =>
      have hsame := halone _ hbrings.means.mem hslot
      have hmention := habsent _
        (hoccurrences ▸ List.mem_append_right _ List.mem_cons_self)
      exact absurd (hsame ▸ hbrings.means) hmention

/-- Two options whose slots are made from their long names, and are the same. -/
def dryRun : CommandDeclaration :=
  { typeName := "Tool"
    name := .text "tool"
    description := ""
    options :=
      [ .option { long := "dry-run", kind := some .bool },
        .option { long := "dry_run", default := .text "x" },
        .option { long := "level", kind := some .int, default := .int 3 } ]
    isAbstract := false
    factory := .itself
    program := .actions []
    hook := .none }

def drySchema : CommandSchema :=
  { name := "tool"
    description := ""
    options :=
      [ { long := "dry-run", kind := .bool, slot := "dry_run",
          default := .bool false },
        { long := "dry_run", kind := .string, slot := "dry_run",
          default := .text "x" },
        { long := "level", kind := .int, slot := "level", default := .int 3 } ]
    typeName := "Tool"
    factory := .itself
    program := .actions []
    hook := .none }

theorem register_dryRun : ∃ registered notes,
    Registry.empty.register (.command dryRun) = .ok (drySchema, registered, notes) :=
  ⟨_, _, rfl⟩

def dryInvocation :
    Invocation := ⟨"tool", [], [.plain "dry-run" true 0], ⟨none, none⟩⟩

theorem absent_dryInvocation (hoption : option ∈ drySchema.options)
    (hlong : option.long ≠ "dry-run") :
    ∀ occurrence ∈ dryInvocation.options, ¬Means drySchema occurrence option := by
  obtain ⟨registered, notes, hregister⟩ := register_dryRun
  obtain ⟨-, declaration, hschema⟩ := Registry.toSchema_of_register hregister
  intro occurrence hoccurrence hmeans
  rw [List.mem_singleton.mp hoccurrence] at hmeans
  have hfound := findOption_of_means (CommandDeclaration.namesApart hschema) hmeans
  cases hfound
  exact hlong rfl

theorem bindTo_absent_level :
    ∃ registered notes bound note option,
      Registry.empty.register (.command dryRun) =
        .ok (drySchema, registered, notes) ∧
      bindTo [] dryInvocation drySchema = .ok (bound, note) ∧
      option ∈ drySchema.options ∧ option.long = "level" ∧
      (∀ occurrence ∈ dryInvocation.options, ¬Means drySchema occurrence option) ∧
      Table.get? "level" bound.command.values = some (.int 3) := by
  obtain ⟨registered, notes, hregister⟩ := register_dryRun
  have hlevel : ⟨"level", none, false, "", .int, false, none, none,
      "level", .int 3⟩ ∈
        drySchema.options := List.mem_cons_of_mem _
        (List.mem_cons_of_mem _ List.mem_cons_self)
  have habsent := absent_dryInvocation hlevel (by decide)
  obtain ⟨bound, note, hbind⟩ : ∃ bound note,
      bindTo [] dryInvocation drySchema = .ok (bound, note) := ⟨_, _, rfl⟩
  obtain ⟨value, hvalue, -, hdefault⟩ := bindTo_absent hregister hbind hlevel habsent
  refine ⟨registered, notes, bound, note, _, hregister, hbind, hlevel, rfl,
    habsent, ?_⟩
  rw [hvalue, hdefault]
  intro other hother hslot
  simp only [drySchema, List.mem_cons, List.not_mem_nil, or_false] at hother
  rcases hother with rfl | rfl | rfl
  · exact absurd hslot (by decide)
  · exact absurd hslot (by decide)
  · rfl

/-- A flag hides the default of an option that is not on the line. -/
theorem shared_slot_hides_default :
    ∃ registered notes bound note option,
      Registry.empty.register (.command dryRun) =
        .ok (drySchema, registered, notes) ∧
      Pipeline.parse "tool --dry-run" = .ok (some [dryInvocation]) ∧
      bindTo [] dryInvocation drySchema = .ok (bound, note) ∧
      option ∈ drySchema.options ∧
      (∀ occurrence ∈ dryInvocation.options, ¬Means drySchema occurrence option) ∧
      option.default = .text "x" ∧
      Table.get? option.slot bound.command.values = some (.bool true) := by
  obtain ⟨registered, notes, hregister⟩ := register_dryRun
  have hoption : ⟨"dry_run", none, false, "", .string, false, none, none, "dry_run",
      .text "x"⟩ ∈
        drySchema.options := List.mem_cons_of_mem _ List.mem_cons_self
  exact ⟨registered, notes, _, _, _, hregister, rfl, rfl, hoption,
    absent_dryInvocation hoption (by decide), rfl, rfl⟩

end PipeShell.Binding
