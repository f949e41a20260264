import PipeShell.Binding
import PipeShell.Catalog
import PipeShell.Proofs.Basic
import PipeShell.Proofs.Tables

namespace PipeShell

def Fault.OfKind (kind : Failure.Kind) (fault : Fault) : Prop :=
  ∃ cause, fault = .failure cause ∧ cause.kind = kind

def Program.builtin? : Program → Option Builtin
  | .builtin command => some command
  | .actions _ => none

namespace Conversion

variable {parsers : Parsers} {option : OptionSchema} {raw : String} {fault : Fault}

theorem element_error (hkind : option.kind ≠ .structured)
    (helement : element parsers option raw = .error fault) (message : String) :
    fault ≠ .cancelled message := by
  unfold element scalar at helement
  split at helement
  · cases helement
  · unfold toInt at helement
    split at helement <;> cases helement <;> nofun
  · unfold toFloat at helement
    split at helement <;> cases helement
    nofun
  · unfold toBool at helement
    simp only at helement
    split at helement
    · cases helement
    · split at helement <;> cases helement
      nofun
  · split at helement
    · unfold toMember at helement
      split at helement <;> cases helement
      nofun
    · cases helement
      nofun
  · next hstructured => exact absurd hstructured hkind

private theorem convert_error {quoted : Bool} (hkind : option.kind ≠ .structured)
    (hconvert : convert parsers option quoted raw = .error fault)
    (message : String) : fault ≠ .cancelled message := by
  unfold convert at hconvert
  split at hconvert
  · cases hitems : (elements quoted raw).mapM (element parsers option) with
    | error cause =>
        rw [hitems] at hconvert
        cases hconvert
        obtain ⟨item, -, hitem⟩ := mapM_error hitems
        exact element_error hkind hitem message
    | ok items =>
        rw [hitems] at hconvert
        cases hconvert
  · exact element_error hkind hconvert message

private theorem convert_list {quoted : Bool} {value : Value}
    (hlist : option.isList = true)
    (hconvert : convert parsers option quoted raw = .ok value) :
    ∃ items, value = .list items := by
  rw [convert, if_pos hlist] at hconvert
  cases hitems : (elements quoted raw).mapM (element parsers option) with
  | error cause =>
      rw [hitems] at hconvert
      cases hconvert
  | ok items =>
      rw [hitems] at hconvert
      cases hconvert
      exact ⟨items, rfl⟩

end Conversion

/-- Instances are made directly, values are read without the host, and a slot with a
list has nothing else in it. -/
def CommandSchema.Settled (schema : CommandSchema) : Prop :=
  schema.factory.isItself = true ∧ schema.program.builtin?.isSome = true ∧
    (∀ option ∈ schema.options, option.kind ≠ .structured) ∧
      ∀ option ∈ schema.options, option.isList = true → ∀ other ∈ schema.options,
        other.slot = option.slot ∨ other.long = option.long →
          other.isList = true ∧ other.isFlag = false ∧ other.slot = option.slot

instance : DecidablePred CommandSchema.Settled := fun schema =>
  inferInstanceAs (Decidable (schema.factory.isItself = true ∧
    schema.program.builtin?.isSome = true ∧
      (∀ option ∈ schema.options, option.kind ≠ .structured) ∧
      ∀ option ∈ schema.options, option.isList = true → ∀ other ∈ schema.options,
        other.slot = option.slot ∨ other.long = option.long →
          other.isList = true ∧ other.isFlag = false ∧ other.slot = option.slot))

theorem Catalog.settled {tied : Bool} {declaration : CommandDeclaration}
    {schema : CommandSchema} (hmember : declaration ∈ Catalog.all tied)
    (hschema : declaration.toSchema = .ok schema) : schema.Settled := by
  have hall : (Catalog.all tied).all fun declaration =>
      declaration.toSchema.toOption.all fun schema => decide schema.Settled := by
    cases tied <;> decide +kernel
  have hthis := List.all_eq_true.mp hall declaration hmember
  rw [hschema] at hthis
  simpa [Except.toOption] using hthis

namespace Binding

variable {parsers : Parsers} {invocation : Invocation} {schema : CommandSchema}
  {state : State}

theorem mem_of_findOption {occurrence : Occurrence} {option : OptionSchema}
    (hfound : findOption schema occurrence = some option) :
    option ∈ schema.options := by
  unfold findOption at hfound
  split at hfound
  · exact List.mem_of_find?_eq_some hfound
  · unfold CommandSchema.findShort? at hfound
    split at hfound
    · next hexact =>
        cases hfound
        exact List.mem_of_find?_eq_some hexact
    · exact List.mem_of_find?_eq_some hfound

inductive Settles {α : Type} (post : α → Prop) : Except Fault α → Prop
  | ok {value : α} (hvalue : post value) : Settles post (.ok value)
  | refused {fault : Fault} (hfault : fault.OfKind .bind) :
  Settles post (.error fault)

theorem settles_toFault {α : Type} {post : α → Prop} (error : BindError)
    (command help : String) :
    Settles post (.error (error.toFault command help)) :=
  .refused ⟨_, rfl, rfl⟩

def State.Lists (schema : CommandSchema) (state : State) : Prop :=
  ∀ option ∈ schema.options, option.isList = true → option.long ∈ state.seen →
    ∃ items, state.command.value option.slot = .list items

theorem State.mem_markSeen {long other : String} :
    other ∈ (state.markSeen long).seen ↔ other ∈ state.seen ∨ other = long := by
  unfold markSeen
  by_cases hseen : state.seen.contains long = true
  · have hmem : long ∈ state.seen := by simpa using hseen
    simp only [if_pos hseen]
    constructor
    · exact .inl
    · rintro (hother | rfl)
      · exact hother
      · exact hmem
  · simp only [if_neg hseen, List.mem_append, List.mem_singleton]

theorem State.Lists.set (hsettled : schema.Settled) (hlists : state.Lists schema)
    {option : OptionSchema} (hoption : option ∈ schema.options) {value : Value}
    (hvalue : option.isList = true → option.isFlag = false →
      ∃ items, value = .list items)
    (returned : List (Nat × String)) :
    ({ state with command := state.command.set option.slot value, returned }.markSeen
      option.long).Lists schema := by
  obtain ⟨-, -, -, hshared⟩ := hsettled
  intro list hmember hlist hseen
  have hcommand : ({ state with
      command := state.command.set option.slot value, returned }.markSeen
        option.long).command.value list.slot =
          (state.command.set option.slot value).value list.slot :=
    rfl
  rw [hcommand, Instance.value, Instance.set]
  -- Options that share the slot of a list are lists themselves; any other leaves it
  -- as it is.
  by_cases hslot : option.slot = list.slot
  · obtain ⟨hisList, hflag, -⟩ :=
      hshared list hmember hlist option hoption (.inl hslot)
    rw [hslot, Table.get?_set_self]
    exact hvalue hisList hflag
  · rw [Table.get?_set_of_ne (Ne.symm hslot)]
    refine hlists list hmember hlist ?_
    rcases State.mem_markSeen.mp hseen with hbefore | hlong
    · exact hbefore
    · exact absurd (hshared list hmember hlist option hoption (.inr hlong.symm)).2.2
        hslot

/-- A state in which every list can be extended, of a command with the given
program. -/
structure State.Ready (schema : CommandSchema) (state : State) : Prop where
  lists : state.Lists schema
  program : state.command.program = schema.program

private theorem store_ok (hsettled : schema.Settled) (hready : state.Ready schema)
    {option : OptionSchema} (hoption : option ∈ schema.options) {value : Value}
    (hvalue : option.isList = true → ∃ items, value = .list items) :
    ∃ next, store state option value = .ok next ∧ next.Ready schema := by
  unfold store
  split
  · next items hlist =>
      have hstart : ∃ old, (if state.seen.contains option.long then
          state.command.value option.slot else .list []) = .list old := by
        split
        · next hseen =>
            exact hready.lists option hoption hlist (by simpa using hseen)
        · exact ⟨[], rfl⟩
      obtain ⟨old, hold⟩ := hstart
      simp only [hold, extend]
      exact ⟨_, rfl, hready.lists.set hsettled hoption (fun _ _ => ⟨_, rfl⟩) _,
        hready.program⟩
  · exact ⟨_, rfl, hready.lists.set hsettled hoption (fun hlist _ => hvalue hlist) _,
      hready.program⟩

private theorem applyValue_settles (hsettled : schema.Settled)
    (hready : state.Ready schema) {option : OptionSchema}
    (hoption : option ∈ schema.options) (occurrence : Occurrence) :
    Settles (State.Ready schema)
      (applyValue parsers invocation schema state occurrence option) := by
  unfold applyValue
  split
  · exact settles_toFault _ _ _
  · simp only
    split
    · next value hconvert =>
        obtain ⟨next, hstore, hnext⟩ := store_ok hsettled hready hoption fun hlist =>
          Conversion.convert_list hlist hconvert
        rw [hstore]
        exact .ok hnext
    · next message hconvert =>
        have hkind := hsettled.2.2.1 option hoption
        exact absurd rfl (Conversion.convert_error hkind hconvert message)
    · exact settles_toFault _ _ _

private theorem apply_settles (hsettled : schema.Settled)
    (hready : state.Ready schema) (occurrence : Occurrence) :
    Settles (State.Ready schema)
      (apply parsers invocation schema state occurrence) := by
  unfold apply
  split
  · exact settles_toFault _ _ _
  · next option hfound =>
      have hoption := mem_of_findOption hfound
      split
      · next hflag =>
          unfold applyFlag
          split
          · exact settles_toFault _ _ _
          · refine .ok ⟨hready.lists.set hsettled hoption (fun _ hother => ?_) _,
              hready.program⟩
            rw [hflag] at hother
            cases hother
      · exact applyValue_settles hsettled hready hoption occurrence

private theorem applyAll_settles (hsettled : schema.Settled)
    (hready : state.Ready schema) (occurrences : List Occurrence) :
    Settles (State.Ready schema)
      (applyAll parsers invocation schema state occurrences) := by
  induction occurrences generalizing state with
  | nil => exact .ok hready
  | cons occurrence rest ih =>
      have hstep : Settles _ (apply parsers invocation schema state occurrence) :=
        apply_settles hsettled hready occurrence
      rw [applyAll]
      generalize apply parsers invocation schema state occurrence = result at hstep ⊢
      cases hstep with
      | refused hfault => exact .refused hfault
      | ok hnext => exact ih hnext

theorem newInstance_settled (hsettled : schema.Settled) :
    ∃ command, schema.newInstance = .ok command ∧
      command.program = schema.program := by
  have hitself := hsettled.1
  unfold CommandSchema.newInstance
  cases hfactory : schema.factory with
  | itself => exact ⟨_, rfl, rfl⟩
  | derived => exact ⟨_, rfl, rfl⟩
  | raises fault =>
      rw [hfactory] at hitself
      cases hitself

private theorem bindTo_settles (hsettled : schema.Settled) :
    Settles (fun found => found.1.command.program = schema.program)
      (bindTo parsers invocation schema) := by
  obtain ⟨command, hnew, hprogram⟩ := newInstance_settled hsettled
  have hstart : State.Ready schema ⟨command, [], []⟩ :=
    ⟨fun _ _ _ hseen => absurd hseen List.not_mem_nil, hprogram⟩
  have hall : Settles _ (applyAll parsers invocation schema ⟨command, [], []⟩
      invocation.options) :=
    applyAll_settles hsettled hstart invocation.options
  unfold bindTo
  rw [hnew]
  simp only
  generalize applyAll parsers invocation schema ⟨command, [], []⟩
    invocation.options = result
    at hall ⊢
  cases hall with
  | refused hfault => exact .refused hfault
  | ok hready =>
      simp only
      split
      · exact settles_toFault _ _ _
      · exact .ok hready.program

end Binding

namespace Registry

/-- Every command comes from the catalog of the shell. -/
def BuiltinOnly (registry : Registry) : Prop :=
  ∀ entry ∈ registry.commands, ∃ tied, ∃ declaration ∈ Catalog.all tied,
    declaration.toSchema = .ok entry.2

variable {registry : Registry}

private theorem BuiltinOnly.settled (hbuiltin : registry.BuiltinOnly) {name : String}
    {schema : CommandSchema} (hlookup : registry.lookup name = some schema) :
    schema.Settled := by
  obtain ⟨tied, declaration, hmember, hschema⟩ :=
    hbuiltin _ (Table.mem_of_get? hlookup)
  exact Catalog.settled hmember hschema

private theorem BuiltinOnly.bindCommand_settles (hbuiltin : registry.BuiltinOnly)
    (parsers : Parsers) (invocation : Invocation) :
    Binding.Settles (fun found => ∃ builtin,
      found.1.command.program = .builtin builtin)
        (registry.bindCommand parsers invocation) := by
  unfold bindCommand
  split
  · next schema hlookup =>
      have hsettled := hbuiltin.settled hlookup
      have hcommand : ∃ builtin, schema.program = .builtin builtin := by
        have hsome := hsettled.2.1
        cases hprogram : schema.program with
        | builtin command => exact ⟨command, rfl⟩
        | actions steps =>
            rw [hprogram] at hsome
            cases hsome
      have hbind : Binding.Settles _ (Binding.bindTo parsers invocation schema) :=
        Binding.bindTo_settles hsettled
      generalize Binding.bindTo parsers invocation schema = result at hbind ⊢
      cases hbind with
      | refused hfault => exact .refused hfault
      | ok hprogram => exact .ok (hprogram ▸ hcommand)
  · exact Binding.settles_toFault _ _ _

theorem BuiltinOnly.bind_settles (hbuiltin : registry.BuiltinOnly)
    (parsers : Parsers) (pipeline : Pipeline) :
    Binding.Settles
      (fun bounds => ∀ bound ∈ bounds, ∃ builtin,
        bound.command.program = .builtin builtin)
      (registry.bind parsers pipeline).2 := by
  induction pipeline with
  | nil => exact .ok fun bound hbound => absurd hbound List.not_mem_nil
  | cons invocation rest ih =>
      have hfirst := hbuiltin.bindCommand_settles parsers invocation
      rw [bind]
      generalize registry.bindCommand parsers invocation = result at hfirst ⊢
      cases hfirst with
      | refused hfault => exact .refused hfault
      | ok hbound =>
          simp only
          generalize (registry.bind parsers rest).2 = result at ih ⊢
          cases ih with
          | refused hfault => exact .refused hfault
          | ok hbounds => exact .ok (List.forall_mem_cons.mpr ⟨hbound, hbounds⟩)

end Registry

end PipeShell
