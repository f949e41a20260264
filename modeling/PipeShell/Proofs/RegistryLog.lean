import Mathlib.Data.Set.Card
import PipeShell.Catalog
import PipeShell.Proofs.Tables

namespace PipeShell

theorem Registrant.exists_declaration {registrant : Registrant}
    {schema : CommandSchema} (hschema : registrant.toSchema = .ok schema) :
    ∃ declaration, registrant = .command declaration ∧
      declaration.toSchema = .ok schema := by
  cases registrant with
  | command declaration =>
      refine ⟨declaration, rfl, ?_⟩
      rw [toSchema] at hschema
      split at hschema
      · next found hfound =>
          cases hschema
          exact hfound
      · cases hschema
  | plainType shown => cases hschema
  | data value => cases hschema

def CommandSchema.key (schema : CommandSchema) : String := Text.lower schema.name

namespace Registry

inductive Event where
  | registered (schema : CommandSchema)
  | removed (name : String)

def Event.key : Event → String
  | .registered schema => schema.key
  | .removed name => Text.lower name

def Event.apply (registry : Registry) : Event → Registry
  | .registered schema => (registry.add schema).1
  | .removed name => (registry.unregister name).2

inductive Change where
  | register (registrant : Registrant)
  | unregister (name : String)
  | scan (moduleName : String) (members : List ModuleMember)

/-- The registry after a call, whether the call fails or not. -/
def Change.apply (registry : Registry) : Change → Registry
  | .register registrant =>
      match registry.register registrant with
      | .ok (_, registry, _) => registry
      | .error _ => registry
  | .unregister name => (registry.unregister name).2
  | .scan moduleName members => (registry.scan moduleName members).registry

/-- The registry that a run of calls makes of an empty one. -/
def run (changes : List Change) : Registry := changes.foldl Change.apply .empty

/-- The commands up to the first whose declaration does not hold up. -/
def accepted : List Registrant → List CommandSchema
  | [] => []
  | registrant :: rest =>
      match registrant.toSchema with
      | .ok schema => schema :: accepted rest
      | .error _ => []

def Change.events : Change → List Event
  | .register registrant => (accepted [registrant]).map .registered
  | .unregister name => [.removed name]
  | .scan moduleName members =>
      (accepted (eligible moduleName members)).map .registered

def logOf (changes : List Change) : List Event := changes.flatMap Change.events

/-! What a log says. -/

/-- The latest registration under a key, with no removal since. -/
def Current (log : List Event) (key : String) (schema : CommandSchema) : Prop :=
  ∃ place : Nat, log[place]? = some (Event.registered schema) ∧ schema.key = key ∧
    ∀ (later : Nat) (event : Event), place < later → log[later]? = some event →
      event.key ≠ key

/-- The first registration under a key since the key was last removed, if it was. -/
structure Entered (log : List Event) (key : String) (place : Nat) : Prop where
  registered : ∃ schema, log[place]? = some (Event.registered schema) ∧
    schema.key = key
  kept : ∀ (later : Nat) (name : String), place < later →
    log[later]? = some (Event.removed name) → Text.lower name ≠ key
  first : ∀ (earlier : Nat) (schema : CommandSchema), earlier < place →
    log[earlier]? = some (Event.registered schema) → schema.key = key →
    ∃ (between : Nat) (name : String), earlier < between ∧ between < place ∧
      log[between]? = some (Event.removed name) ∧ Text.lower name = key

def EnteredBefore (log : List Event) (key other : String) : Prop :=
  ∃ place later, place < later ∧ Entered log key place ∧ Entered log other later

structure Reflects (registry : Registry) (log : List Event) : Prop where
  keyed : ∀ entry ∈ registry.commands, entry.1 = Text.lower entry.2.name
  distinct : (Table.keys registry.commands).Nodup
  lookup_iff : ∀ name schema,
    registry.lookup name = some schema ↔ Current log (Text.lower name) schema
  contains_iff : ∀ name,
    registry.contains name = true ↔ ∃ schema, Current log (Text.lower name) schema
  names_eq : ∃ live : List CommandSchema,
    registry.names = live.map (·.name) ∧ (live.map (·.key)).Nodup ∧
      (∀ schema, schema ∈ live ↔ Current log schema.key schema) ∧
      live.Pairwise fun schema other => EnteredBefore log schema.key other.key
  size_eq : registry.size = Set.ncard {schema | Current log schema.key schema}

variable {registry : Registry} {log : List Event} {event : Event} {key : String}
  {schema : CommandSchema} {place : Nat}

/-! What one more event changes. -/

theorem getElem?_concat_iff {other : Event} :
    (log ++ [event])[place]? = some other ↔
      log[place]? = some other ∨ place = log.length ∧ event = other := by
  rw [List.getElem?_append]
  split
  · next hplace => simp [Nat.ne_of_lt hplace]
  · next hplace =>
      rw [List.getElem?_eq_none (Nat.le_of_not_lt hplace), List.getElem?_singleton]
      split
      · simp [show place = log.length by omega]
      · simp [show place ≠ log.length by omega]

theorem place_lt (hplace : log[place]? = some event) : place < log.length :=
  (List.getElem?_eq_some_iff.mp hplace).1

theorem current_concat_of_eq (hkey : event.key = key) :
    Current (log ++ [event]) key schema ↔ event = .registered schema := by
  constructor
  · rintro ⟨place, hplace, -, hlast⟩
    rcases getElem?_concat_iff.mp hplace with hbefore | ⟨-, hevent⟩
    · exact absurd hkey (hlast _ event (place_lt hbefore)
        (getElem?_concat_iff.mpr (.inr ⟨rfl, rfl⟩)))
    · exact hevent
  · rintro rfl
    refine ⟨log.length, getElem?_concat_iff.mpr (.inr ⟨rfl, rfl⟩), hkey, ?_⟩
    intro later event hlater hevent
    have hbound : later < (log ++ [Event.registered schema]).length :=
      place_lt hevent
    rw [List.length_append, List.length_singleton] at hbound
    omega

theorem current_concat_of_ne (hkey : event.key ≠ key) :
    Current (log ++ [event]) key schema ↔ Current log key schema := by
  constructor
  · rintro ⟨place, hplace, hname, hlast⟩
    rcases getElem?_concat_iff.mp hplace with hbefore | ⟨-, rfl⟩
    · refine ⟨place, hbefore, hname, ?_⟩
      intro later other hlater hother
      exact hlast later other hlater (getElem?_concat_iff.mpr (.inl hother))
    · exact absurd hname hkey
  · rintro ⟨place, hplace, hname, hlast⟩
    refine ⟨place, getElem?_concat_iff.mpr (.inl hplace), hname, ?_⟩
    intro later other hlater hother
    rcases getElem?_concat_iff.mp hother with hbefore | ⟨-, rfl⟩
    · exact hlast later other hlater hbefore
    · exact hkey

private theorem exists_current
    (hplace : log[place]? = some (Event.registered schema)) (hkey : schema.key = key)
    (hkept : ∀ (later : Nat) (name : String), place < later →
      log[later]? = some (Event.removed name) → Text.lower name ≠ key) :
    ∃ current, Current log key current := by
  induction log using List.reverseRecOn with
  | nil => cases hplace
  | append_singleton log event ih =>
      by_cases hevent : event.key = key
      · cases event with
        | registered latest => exact ⟨latest, (current_concat_of_eq hevent).mpr rfl⟩
        | removed name =>
            rcases getElem?_concat_iff.mp hplace with hbefore | ⟨-, hregistered⟩
            · exact absurd hevent (hkept log.length name (place_lt hbefore)
                (getElem?_concat_iff.mpr (.inr ⟨rfl, rfl⟩)))
            · cases hregistered
      · rcases getElem?_concat_iff.mp hplace with hbefore | ⟨-, rfl⟩
        · obtain ⟨current, hcurrent⟩ := ih hbefore fun later name hlater hremoved =>
            hkept later name hlater (getElem?_concat_iff.mpr (.inl hremoved))
          exact ⟨current, (current_concat_of_ne hevent).mpr hcurrent⟩
        · exact absurd hkey hevent

theorem Entered.place_lt (hentered : Entered log key place) :
    place < log.length := by
  obtain ⟨schema, hplace, -⟩ := hentered.registered
  exact Registry.place_lt hplace

theorem Entered.concat (hentered : Entered log key place)
    (hevent : ∀ name, event = .removed name → Text.lower name ≠ key) :
    Entered (log ++ [event]) key place where
  registered := by
    obtain ⟨schema, hplace, hkey⟩ := hentered.registered
    exact ⟨schema, getElem?_concat_iff.mpr (.inl hplace), hkey⟩
  kept := by
    intro later name hlater hremoved
    rcases getElem?_concat_iff.mp hremoved with hbefore | ⟨-, hname⟩
    · exact hentered.kept later name hlater hbefore
    · exact hevent name hname
  first := by
    intro earlier schema hearlier hregistered hkey
    rcases getElem?_concat_iff.mp hregistered with hbefore | ⟨hend, -⟩
    · obtain ⟨between, name, hafter, hplace, hremoved, hname⟩ :=
        hentered.first earlier schema hearlier hbefore hkey
      exact ⟨between, name, hafter, hplace,
        getElem?_concat_iff.mpr (.inl hremoved), hname⟩
    · have hbound := hentered.place_lt
      omega

/-- A key that is not in use comes in at the end. -/
theorem entered_concat_registered
    (hfresh : ∀ current, ¬ Current log schema.key current) :
    Entered (log ++ [.registered schema]) schema.key log.length where
  registered := ⟨schema, getElem?_concat_iff.mpr (.inr ⟨rfl, rfl⟩), rfl⟩
  kept := by
    intro later name hlater hremoved
    rcases getElem?_concat_iff.mp hremoved with hbefore | ⟨-, hname⟩
    · have hbound := Registry.place_lt hbefore
      omega
    · cases hname
  first := by
    intro earlier other hearlier hregistered hkey
    rcases getElem?_concat_iff.mp hregistered with hbefore | ⟨hend, -⟩
    · -- Had it not been removed since, the key would still be in use.
      by_contra hkept
      obtain ⟨current, hcurrent⟩ := exists_current hbefore hkey (by
        intro later name hlater hremoved hname
        exact hkept ⟨later, name, hlater, Registry.place_lt hremoved,
          getElem?_concat_iff.mpr (.inl hremoved), hname⟩)
      exact hfresh current hcurrent
    · omega

theorem EnteredBefore.concat {other : String} (hbefore : EnteredBefore log key other)
    (hkey : ∀ name, event = .removed name → Text.lower name ≠ key)
    (hother : ∀ name, event = .removed name → Text.lower name ≠ other) :
    EnteredBefore (log ++ [event]) key other := by
  obtain ⟨place, later, hlater, hentered, hentered'⟩ := hbefore
  exact ⟨place, later, hlater, hentered.concat hkey, hentered'.concat hother⟩

/-- The part of `Reflects` that the rest follows from, stated of the table alone. -/
structure Holds (commands : Table CommandSchema) (log : List Event) : Prop where
  keyed : ∀ entry ∈ commands, entry.1 = entry.2.key
  distinct : (Table.keys commands).Nodup
  get?_iff : ∀ key schema, Table.get? key commands = some schema ↔
    Current log key schema
  entered : ∀ key ∈ Table.keys commands, ∃ place, Entered log key place
  ordered : (Table.keys commands).Pairwise (EnteredBefore log)

private theorem holds_nil : Holds [] [] where
  keyed := by simp
  distinct := List.nodup_nil
  get?_iff := by simp [Table.get?, Current]
  entered := by simp [Table.keys]
  ordered := List.Pairwise.nil

private theorem mem_set_keyed {commands : Table CommandSchema}
    (hkeyed : ∀ entry ∈ commands, entry.1 = entry.2.key) (schema : CommandSchema) :
    ∀ entry ∈ Table.set schema.key schema commands, entry.1 = entry.2.key := by
  induction commands with
  | nil => simp [Table.set]
  | cons first rest ih =>
      obtain ⟨hfirst, hrest⟩ := List.forall_mem_cons.mp hkeyed
      rw [Table.set]
      split
      · next hkey => exact List.forall_mem_cons.mpr ⟨hkey, hrest⟩
      · exact List.forall_mem_cons.mpr ⟨hfirst, ih hrest⟩

variable {commands : Table CommandSchema}

private theorem Holds.get?_register (hholds : Holds commands log)
    (schema : CommandSchema) (key : String) (current : CommandSchema) :
    Table.get? key (Table.set schema.key schema commands) = some current ↔
      Current (log ++ [.registered schema]) key current := by
  by_cases hkey : (Event.registered schema).key = key
  · rw [current_concat_of_eq hkey, ← hkey, Event.key, Table.get?_set_self]
    simp
  · have hother : key ≠ schema.key := Ne.symm hkey
    rw [current_concat_of_ne hkey, Table.get?_set_of_ne hother]
    exact hholds.get?_iff key current

private theorem Holds.register (hholds : Holds commands log)
    (schema : CommandSchema) :
    Holds (Table.set schema.key schema commands) (log ++ [.registered schema]) := by
  have hkept (key name : String)
      (hremoved : Event.registered schema = .removed name) :
        Text.lower name ≠ key := nomatch hremoved
  have hentered (key : String) (hkey : key ∈ Table.keys commands) :
      ∃ place < log.length, Entered (log ++ [.registered schema]) key place := by
    obtain ⟨place, hplace⟩ := hholds.entered key hkey
    exact ⟨place, hplace.place_lt, hplace.concat (hkept key)⟩
  have hordered : (Table.keys commands).Pairwise
      (EnteredBefore (log ++ [.registered schema])) :=
    hholds.ordered.imp fun hbefore => hbefore.concat (hkept _) (hkept _)
  have hkeys := Table.keys_set schema.key schema commands
  by_cases hused : schema.key ∈ Table.keys commands
  · rw [if_pos hused] at hkeys
    refine ⟨mem_set_keyed hholds.keyed schema, hkeys ▸ hholds.distinct,
      hholds.get?_register schema, ?_, hkeys ▸ hordered⟩
    intro key hkey
    obtain ⟨place, -, hplace⟩ := hentered key (hkeys ▸ hkey)
    exact ⟨place, hplace⟩
  · rw [if_neg hused] at hkeys
    have hnew : Entered (log ++ [.registered schema]) schema.key log.length :=
      entered_concat_registered fun current hcurrent =>
        hused (Table.mem_keys_iff.mpr ⟨current, (hholds.get?_iff _ _).mpr hcurrent⟩)
    refine ⟨mem_set_keyed hholds.keyed schema, ?_,
      hholds.get?_register schema, ?_, ?_⟩
    · rw [hkeys, ← List.concat_eq_append]
      exact hholds.distinct.concat hused
    · intro key hkey
      rw [hkeys] at hkey
      rcases List.mem_append.mp hkey with hkey | hkey
      · obtain ⟨place, -, hplace⟩ := hentered key hkey
        exact ⟨place, hplace⟩
      · obtain rfl := List.mem_singleton.mp hkey
        exact ⟨log.length, hnew⟩
    · rw [hkeys, List.pairwise_append]
      refine ⟨hordered, List.pairwise_singleton _ _, ?_⟩
      intro key hkey other hother
      obtain rfl := List.mem_singleton.mp hother
      obtain ⟨place, hlt, hplace⟩ := hentered key hkey
      exact ⟨place, log.length, hlt, hplace, hnew⟩

private theorem Holds.unregister (hholds : Holds commands log) (name : String) :
    Holds (Table.erase (Text.lower name) commands) (log ++ [.removed name]) := by
  have hkept (key : String) (hkey : key ≠ Text.lower name) (other : String)
      (hremoved : Event.removed name = .removed other) : Text.lower other ≠ key := by
    cases hremoved
    exact Ne.symm hkey
  have hkeys := Table.keys_erase (Text.lower name) commands
  have hmem (key : String)
      (hkey : key ∈ Table.keys (Table.erase (Text.lower name) commands)) :
        key ∈ Table.keys commands ∧ key ≠ Text.lower name := by
    rw [hkeys] at hkey
    simpa using hkey
  refine ⟨?_, ?_, ?_, ?_, ?_⟩
  · intro entry hentry
    exact hholds.keyed entry (List.mem_filter.mp hentry).1
  · rw [hkeys]
    exact hholds.distinct.filter _
  · intro key current
    by_cases hkey : (Event.removed name).key = key
    · rw [current_concat_of_eq hkey, ← hkey, Event.key, Table.get?_erase_self]
      simp
    · have hother : key ≠ Text.lower name := Ne.symm hkey
      rw [current_concat_of_ne hkey, Table.get?_erase_of_ne hother]
      exact hholds.get?_iff key current
  · intro key hkey
    obtain ⟨hbefore, hother⟩ := hmem key hkey
    obtain ⟨place, hplace⟩ := hholds.entered key hbefore
    exact ⟨place, hplace.concat (hkept key hother)⟩
  · have hsublist : (Table.keys (Table.erase (Text.lower name) commands)).Pairwise
        (EnteredBefore log) := hkeys ▸ hholds.ordered.filter _
    apply hsublist.imp_of_mem
    intro key other hkey hother hbefore
    exact hbefore.concat (hkept key (hmem key hkey).2)
      (hkept other (hmem other hother).2)

theorem holds_replay (log : List Event) :
    Holds (log.foldl Event.apply .empty).commands log := by
  induction log using List.reverseRecOn with
  | nil => exact holds_nil
  | append_singleton log event ih =>
      rw [List.foldl_append, List.foldl_cons, List.foldl_nil]
      cases event with
      | registered schema => exact ih.register schema
      | removed name => exact ih.unregister name

private theorem Holds.reflects (hholds : Holds registry.commands log) :
    Reflects registry log := by
  have hlookup (name : String) (schema : CommandSchema) :
      registry.lookup name = some schema ↔ Current log (Text.lower name) schema :=
    hholds.get?_iff (Text.lower name) schema
  have hlive (schema : CommandSchema) :
      schema ∈ registry.commands.map (·.2) ↔ Current log schema.key schema := by
    rw [← hholds.get?_iff, ← Table.mem_iff_get? hholds.distinct, List.mem_map]
    constructor
    · rintro ⟨entry, hentry, rfl⟩
      rw [← hholds.keyed entry hentry]
      exact hentry
    · intro hentry
      exact ⟨(schema.key, schema), hentry, rfl⟩
  have hkeys : (registry.commands.map (·.2)).map (·.key) =
      Table.keys registry.commands := by
    rw [List.map_map]
    exact List.map_congr_left fun entry hentry => (hholds.keyed entry hentry).symm
  have hdistinct : ((registry.commands.map (·.2)).map (·.key)).Nodup :=
    hkeys ▸ hholds.distinct
  refine ⟨hholds.keyed, hholds.distinct, hlookup, ?_, ?_, ?_⟩
  · intro name
    simp only [contains, Option.isSome_iff_exists, hlookup]
  · refine ⟨registry.commands.map (·.2), ?_, hdistinct, hlive, ?_⟩
    · rw [names, List.map_map]
      rfl
    · apply List.pairwise_map.mp
      rw [hkeys]
      exact hholds.ordered
  · classical
    have hset : {schema | Current log schema.key schema} =
        ((registry.commands.map (·.2)).toFinset : Set CommandSchema) := by
      ext schema
      simp only [Set.mem_ofPred_eq, List.coe_toFinset, hlive]
    rw [hset, Set.ncard_coe_finset, List.toFinset_card_of_nodup hdistinct.of_map,
      List.length_map]
    rfl

/-! What the calls do is what their events do. -/

theorem accepted_of_register {registrant : Registrant} {next : Registry}
    {notes : List Journal.Note}
    (hregister : registry.register registrant = .ok (schema, next, notes)) :
    accepted [registrant] = [schema] := by
  rw [register] at hregister
  cases hschema : registrant.toSchema with
  | error failure =>
      rw [hschema] at hregister
      cases hregister
  | ok found =>
      rw [hschema] at hregister
      cases hregister
      rw [accepted, hschema]
      rfl

private theorem accepted_of_register_failed {registrant : Registrant}
    {failure : Failure} (hregister : registry.register registrant = .error failure) :
    accepted [registrant] = [] := by
  rw [register] at hregister
  cases hschema : registrant.toSchema with
  | error other => rw [accepted, hschema]
  | ok found =>
      rw [hschema] at hregister
      cases hregister

private theorem registerAll_registry (registry : Registry)
    (registrants : List Registrant) : (registry.registerAll registrants).registry =
      ((accepted registrants).map Event.registered).foldl Event.apply registry := by
  induction registrants generalizing registry with
  | nil => rfl
  | cons registrant rest ih =>
      rw [registerAll, register, accepted]
      cases registrant.toSchema with
      | error failure => rfl
      | ok schema => exact ih (registry.add schema).1

theorem scan_registry (registry : Registry) (moduleName : String)
    (members : List ModuleMember) : (registry.scan moduleName members).registry =
      (registry.registerAll (eligible moduleName members)).registry := by
  simp only [scan]
  split <;> rfl

private theorem scan_failed {moduleName : String} {members : List ModuleMember}
    {failure : Failure} (hfailed : (registry.scan moduleName members).result =
      .error failure) :
    (registry.registerAll (eligible moduleName members)).result =
      .error failure := by
  simp only [scan] at hfailed
  split at hfailed <;> exact hfailed

private theorem Change.apply_eq (registry : Registry) (change : Change) :
    change.apply registry = change.events.foldl Event.apply registry := by
  cases change with
  | register registrant =>
      rw [Change.apply, Change.events, accepted, Registry.register]
      cases registrant.toSchema <;> rfl
  | unregister name => rfl
  | scan moduleName members =>
      rw [Change.apply, Change.events, scan_registry, registerAll_registry]

theorem run_concat (changes : List Change) (change : Change) :
    run (changes ++ [change]) = change.apply (run changes) := by
  rw [run, List.foldl_append]
  rfl

theorem logOf_concat (changes : List Change) (change : Change) :
    logOf (changes ++ [change]) = logOf changes ++ change.events := by
  rw [logOf, List.flatMap_append, List.flatMap_singleton]
  rfl

theorem run_eq_replay (changes : List Change) :
    run changes = (logOf changes).foldl Event.apply .empty := by
  induction changes using List.reverseRecOn with
  | nil => rfl
  | append_singleton changes change ih =>
      rw [run_concat, ih, Change.apply_eq, logOf_concat, List.foldl_append]

/-! What is found in a registry comes from a declaration that holds up. -/

theorem mem_accepted {registrants : List Registrant}
    (hschema : schema ∈ accepted registrants) :
    ∃ registrant ∈ registrants, registrant.toSchema = .ok schema := by
  induction registrants with
  | nil => cases hschema
  | cons registrant rest ih =>
      rw [accepted] at hschema
      cases hvalid : registrant.toSchema with
      | error failure =>
          rw [hvalid] at hschema
          cases hschema
      | ok found =>
          rw [hvalid] at hschema
          rcases List.mem_cons.mp hschema with rfl | hlater
          · exact ⟨registrant, List.mem_cons_self, hvalid⟩
          · obtain ⟨other, hother, hfound⟩ := ih hlater
            exact ⟨other, List.mem_cons_of_mem _ hother, hfound⟩

private theorem mem_events {change : Change}
    (hevent : .registered schema ∈ change.events) :
    ∃ registrant : Registrant, registrant.toSchema = .ok schema := by
  have hfrom (registrants : List Registrant)
      (hregistered : .registered schema ∈ (accepted registrants).map
        Event.registered) :
      ∃ registrant : Registrant, registrant.toSchema = .ok schema := by
    obtain ⟨_, haccepted, ⟨⟩⟩ := List.mem_map.mp hregistered
    obtain ⟨registrant, -, hvalid⟩ := mem_accepted haccepted
    exact ⟨registrant, hvalid⟩
  cases change with
  | register registrant => exact hfrom _ hevent
  | unregister name => simp [Change.events] at hevent
  | scan moduleName members => exact hfrom _ hevent

theorem holds_run (changes : List Change) :
    Holds (run changes).commands (logOf changes) := by
  rw [run_eq_replay]
  exact holds_replay (logOf changes)

theorem declared_of_lookup {changes : List Change} {name : String}
    (hlookup : (run changes).lookup name = some schema) :
    ∃ declaration : CommandDeclaration, declaration.toSchema = .ok schema := by
  obtain ⟨place, hplace, -⟩ := ((holds_run changes).get?_iff _ schema).mp hlookup
  obtain ⟨change, -, hevent⟩ := List.mem_flatMap.mp (List.mem_of_getElem? hplace)
  obtain ⟨registrant, hvalid⟩ := mem_events hevent
  obtain ⟨declaration, -, hdeclared⟩ := Registrant.exists_declaration hvalid
  exact ⟨declaration, hdeclared⟩

theorem registerAll_failed {registrants : List Registrant} {failure : Failure}
    (hfailed : (registry.registerAll registrants).result = .error failure) :
    ∃ before offending rest, registrants = before ++ offending :: rest ∧
      offending.toSchema = .error failure ∧
      (∀ registrant ∈ before, ∃ schema, registrant.toSchema = .ok schema) ∧
      (registry.registerAll registrants).registry =
        (before.map Change.register).foldl Change.apply registry := by
  induction registrants generalizing registry with
  | nil => cases hfailed
  | cons registrant rest ih =>
      rw [registerAll, register] at hfailed ⊢
      cases hschema : registrant.toSchema with
      | error other =>
          rw [hschema] at hfailed
          cases hfailed
          exact ⟨[], registrant, rest, rfl, hschema, by simp, rfl⟩
      | ok schema =>
          rw [hschema] at hfailed
          have hrest : ((registry.add schema).1.registerAll rest).result =
              .error failure := by
            simp only at hfailed
            cases hresult : ((registry.add schema).1.registerAll rest).result with
            | error other =>
                rw [hresult] at hfailed
                exact hfailed
            | ok count =>
                rw [hresult] at hfailed
                cases hfailed
          obtain ⟨before, offending, after, rfl, hoffending, hbefore, hregistry⟩ :=
            ih hrest
          refine ⟨registrant :: before, offending, after, rfl, hoffending, ?_, ?_⟩
          · exact List.forall_mem_cons.mpr ⟨⟨schema, hschema⟩, hbefore⟩
          · rw [List.map_cons, List.foldl_cons, Change.apply, register, hschema]
            exact hregistry

/-- After every run of calls the registry holds what the log of the run says. A
registration that fails changes nothing, and a scan that fails has registered what
comes before the failure. -/
theorem run_reflects_log (changes : List Change) :
    Reflects (run changes) (logOf changes) ∧
      (∀ registrant schema next notes,
        (run changes).register registrant = .ok (schema, next, notes) →
          run (changes ++ [.register registrant]) = next ∧
            logOf (changes ++ [.register registrant]) = logOf changes ++
              [.registered schema]) ∧
      (∀ registrant failure, (run changes).register registrant = .error failure →
        run (changes ++ [.register registrant]) = run changes ∧
          logOf (changes ++ [.register registrant]) = logOf changes) ∧
      ∀ moduleName members failure,
        ((run changes).scan moduleName members).result = .error failure →
          ∃ before offending rest, eligible moduleName members = before ++
            offending :: rest ∧
            offending.toSchema = .error failure ∧
            (∀ registrant ∈ before, ∃ schema, registrant.toSchema = .ok schema) ∧
            run (changes ++ [.scan moduleName members]) =
              run (changes ++ before.map .register) := by
  refine ⟨?_, ?_, ?_, ?_⟩
  · apply Holds.reflects
    rw [run_eq_replay]
    exact holds_replay (logOf changes)
  · intro registrant schema next notes hregister
    rw [run_concat, logOf_concat, Change.apply, Change.events,
      accepted_of_register hregister, hregister]
    exact ⟨rfl, rfl⟩
  · intro registrant failure hregister
    rw [run_concat, logOf_concat, Change.apply, Change.events,
      accepted_of_register_failed hregister, hregister]
    exact ⟨rfl, List.append_nil _⟩
  · intro moduleName members failure hfailed
    obtain ⟨before, offending, rest, heligible, hoffending, hbefore, hregistry⟩ :=
      registerAll_failed (scan_failed hfailed)
    refine ⟨before, offending, rest, heligible, hoffending, hbefore, ?_⟩
    rw [run_concat, Change.apply, scan_registry, hregistry, run, run,
      List.foldl_append]

def faultyModule : List ModuleMember :=
  [ ⟨"Copy", "host", .command Catalog.cat⟩,
    ⟨"Show", "host", .command { Catalog.pwd with name := .text "p d" }⟩ ]

theorem run_reflects_log_faultyModule :
    let failure := (DefinitionError.badName "p d").toFailure (some "PwdCommand")
    ((run [.register (.command Catalog.cat)]).scan "host" faultyModule).result =
      .error failure ∧
      ∃ before offending rest, eligible "host" faultyModule = before ++
        offending :: rest ∧
        offending.toSchema = .error failure ∧
        (∀ registrant ∈ before, ∃ schema, registrant.toSchema = .ok schema) ∧
        run [.register (.command Catalog.cat), .scan "host" faultyModule] =
          run (.register (.command Catalog.cat) :: before.map .register) := by
  intro failure
  have hsorted : faultyModule.mergeSort (fun a b => a.name ≤ b.name) =
      faultyModule :=
    List.mergeSort_of_pairwise (by decide)
  have hfailed : ((run [.register (.command Catalog.cat)]).scan "host"
      faultyModule).result =
        .error failure := by
    rw [scan, eligible, hsorted]
    rfl
  exact ⟨hfailed, (run_reflects_log [.register (.command Catalog.cat)]).2.2.2 _
    _ _ hfailed⟩

end Registry

end PipeShell
