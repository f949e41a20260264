import Mathlib.Data.List.Perm.Basic
import PipeShell.Proofs.Tables
import PipeShell.Proofs.TextPieces
import PipeShell.Proofs.Values

namespace PipeShell

namespace Conversion

variable {parsers : Parsers} {option : OptionSchema} {values : List String}

theorem elements_comma (first second : String) :
    elements false (first ++ "," ++ second) = elements false first ++
      elements false second :=
  Text.split_append_separator (by simp) first second

theorem elements_join (hsome : values ≠ []) :
    elements false (Text.join "," values) = values.flatMap (elements false) := by
  induction values with
  | nil => exact absurd rfl hsome
  | cons value rest ih =>
      cases rest with
      | nil => rw [Text.join, String.intercalate_singleton, List.flatMap_singleton]
      | cons next rest =>
          have hrest := ih (List.cons_ne_nil next rest)
          rw [Text.join, String.intercalate_cons_cons, elements_comma,
            List.flatMap_cons, ← hrest]
          rfl

private theorem convert_join (hlist : option.isList = true) (hsome : values ≠ []) :
    convert parsers option false (Text.join "," values) =
      (values.mapM fun value =>
        (elements false value).mapM (element parsers option)).map
        fun parts => .list parts.flatten := by
  rw [convert, if_pos hlist, elements_join hsome, mapM_flatMap]
  cases values.mapM fun value =>
    (elements false value).mapM (element parsers option) <;> rfl

private theorem convert_ok_iff (hlist : option.isList = true) {quoted : Bool}
    {raw : String} : (∃ value, convert parsers option quoted raw = .ok value) ↔
      ∃ items, (elements quoted raw).mapM (element parsers option) = .ok items := by
  rw [convert, if_pos hlist]
  cases (elements quoted raw).mapM (element parsers option) with
  | error fault =>
      constructor
      · rintro ⟨value, ⟨⟩⟩
      · rintro ⟨items, ⟨⟩⟩
  | ok items => exact ⟨fun _ => ⟨_, rfl⟩, fun _ => ⟨_, rfl⟩⟩

private theorem convert_join_ok_iff (hlist : option.isList = true)
    (hsome : values ≠ []) :
    (∃ value, convert parsers option false (Text.join "," values) = .ok value) ↔
      ∀ value ∈ values, ∃ found, convert parsers option false value = .ok found := by
  simp only [convert_join hlist hsome, convert_ok_iff hlist]
  rw [← mapM_ok_iff]
  cases values.mapM fun value =>
    (elements false value).mapM (element parsers option) with
  | error fault => exact ⟨nofun, nofun⟩
  | ok parts => exact ⟨fun _ => ⟨_, rfl⟩, fun _ => ⟨_, rfl⟩⟩

private theorem convert_quoted (hlist : option.isList = true) (raw : String) :
    convert parsers option true raw =
      (element parsers option raw).map fun item => .list [item] := by
  rw [convert, if_pos hlist, elements, if_pos rfl, List.mapM_cons, List.mapM_nil]
  cases element parsers option raw <;> rfl

private theorem elements_join_of_plain (hsome : values ≠ [])
    (hplain : ∀ value ∈ values, ',' ∉ value.toList) :
    elements false (Text.join "," values) = values := by
  rw [elements_join hsome]
  have hsingle : ∀ value ∈ values, elements false value = [value] := by
    intro value hvalue
    rw [elements, if_neg Bool.false_ne_true, Text.split,
      Text.splitChars_of_notMem (hplain value hvalue), List.map_singleton,
      String.ofList_toList]
  rw [List.flatMap_congr hsingle, List.flatMap_singleton']

private theorem convert_texts (hlist : option.isList = true)
    (hkind : option.kind = .string) (hsome : values ≠ [])
    (hplain : ∀ value ∈ values, ',' ∉ value.toList) :
    convert parsers option false (Text.join "," values) =
      .ok (.list (values.map .text)) := by
  have helement : element parsers option = fun raw => pure (.text raw) := by
    funext raw
    simp only [element, scalar, hkind]
    rfl
  rw [convert, if_pos hlist, elements_join_of_plain hsome hplain, helement,
    List.mapM_pure]
  rfl

end Conversion

namespace Binding

variable {parsers : Parsers} {invocation : Invocation} {schema : CommandSchema}
  {occurrence : Occurrence} {option target : OptionSchema} {update : Update}
  {state left right : State} {values : List String}

/-- States that differ at most in the order in which options were met. -/
structure State.Alike (left right : State) : Prop where
  command : left.command = right.command
  seen : left.seen.Perm right.seen
  returned : left.returned = right.returned

inductive Agree : Except Fault State → Except Fault State → Prop
  | fault (first second : Fault) : Agree (.error first) (.error second)
  | alike {left right : State} (halike : left.Alike right) :
  Agree (.ok left) (.ok right)

private theorem State.Alike.refl (state : State) :
    state.Alike state := ⟨rfl, .refl _, rfl⟩

theorem Agree.refl (result : Except Fault State) : Agree result result := by
  cases result with
  | error fault => exact .fault fault fault
  | ok state => exact .alike (.refl state)

private theorem Agree.symm {first second : Except Fault State}
    (hagree : Agree first second) :
    Agree second first := by
  cases hagree with
  | fault one other => exact .fault other one
  | alike halike =>
      exact .alike ⟨halike.command.symm, halike.seen.symm, halike.returned.symm⟩

theorem Agree.trans {first second third : Except Fault State}
    (hfirst : Agree first second) (hsecond : Agree second third) :
    Agree first third := by
  cases hfirst with
  | fault one other => cases hsecond with | fault _ last => exact .fault one last
  | alike halike =>
      cases hsecond with
      | alike hnext =>
          exact .alike ⟨halike.command.trans hnext.command,
            halike.seen.trans hnext.seen, halike.returned.trans hnext.returned⟩

theorem State.Alike.contains_eq (halike : left.Alike right) (long : String) :
    left.seen.contains long = right.seen.contains long := by
  rw [List.contains_eq_mem, List.contains_eq_mem]
  exact decide_eq_decide.mpr halike.seen.mem_iff

private theorem State.Alike.markSeen (halike : left.Alike right) (long : String) :
    (left.markSeen long).Alike (right.markSeen long) := by
  refine ⟨halike.command, ?_, halike.returned⟩
  simp only [State.markSeen, halike.contains_eq long]
  split
  · exact halike.seen
  · exact halike.seen.append_right [long]

def State.stored (state : State) (option : OptionSchema)
    (returned : List (Nat × String)) (value : Value) : State :=
  ({ state with
    command := state.command.set option.slot value
    returned := state.returned ++ returned }).markSeen option.long

private theorem State.Alike.slotAfter_eq (halike : left.Alike right)
    (option : OptionSchema) (update : Update) :
    left.slotAfter option update = right.slotAfter option update := by
  cases update with
  | replace value => rfl
  | append items =>
      rw [State.slotAfter, State.slotAfter, halike.contains_eq, halike.command]

private theorem State.Alike.stored (halike : left.Alike right)
    (option : OptionSchema) (returned : List (Nat × String)) (value : Value) :
    (left.stored option returned value).Alike
    (right.stored option returned value) := by
  apply State.Alike.markSeen
  exact ⟨congrArg (·.set option.slot value) halike.command, halike.seen,
    congrArg (· ++ returned) halike.returned⟩

private theorem State.Alike.apply (hnames : schema.NamesApart)
    (halike : left.Alike right) (occurrence : Occurrence) :
    Agree (Binding.apply parsers invocation schema left occurrence)
      (Binding.apply parsers invocation schema right occurrence) := by
  rcases brings_or_offends parsers invocation schema occurrence with
    ⟨option, update, hbrings⟩ | ⟨fault, hoffends⟩
  · rw [apply_of_brings hnames hbrings, apply_of_brings hnames hbrings,
      halike.slotAfter_eq]
    cases right.slotAfter option update with
    | error fault => exact .fault fault fault
    | ok value => exact .alike (halike.stored option _ value)
  · rw [apply_of_offends hnames hoffends, apply_of_offends hnames hoffends]
    exact .fault fault fault

private theorem State.Alike.applyAll (hnames : schema.NamesApart)
    (halike : left.Alike right) (occurrences : List Occurrence) :
    Agree (Binding.applyAll parsers invocation schema left occurrences)
      (Binding.applyAll parsers invocation schema right occurrences) := by
  induction occurrences generalizing left right with
  | nil => exact .alike halike
  | cons occurrence rest ih =>
      have hfirst : Agree (Binding.apply parsers invocation schema left occurrence)
          (Binding.apply parsers invocation schema right occurrence) :=
            halike.apply hnames occurrence
      rw [Binding.applyAll, Binding.applyAll]
      generalize Binding.apply parsers invocation schema left occurrence =
        one at hfirst
      generalize Binding.apply parsers invocation schema right occurrence =
        other at hfirst
      cases hfirst with
      | fault first second => exact .fault first second
      | alike hnext => exact ih hnext

theorem applyAll_append_eq (state : State) (first rest : List Occurrence) :
    applyAll parsers invocation schema state (first ++ rest) =
      applyAll parsers invocation schema state first >>=
        fun middle => applyAll parsers invocation schema middle rest := by
  induction first generalizing state with
  | nil => rfl
  | cons occurrence others ih =>
      rw [List.cons_append, applyAll, applyAll]
      cases apply parsers invocation schema state occurrence with
      | error fault => rfl
      | ok next => exact ih next

theorem Agree.append (hnames : schema.NamesApart) {first second : List Occurrence}
    (hagree : Agree (applyAll parsers invocation schema state first)
      (applyAll parsers invocation schema state second)) (rest : List Occurrence) :
    Agree (applyAll parsers invocation schema state (first ++ rest))
      (applyAll parsers invocation schema state (second ++ rest)) := by
  rw [applyAll_append_eq, applyAll_append_eq]
  generalize applyAll parsers invocation schema state first = one at hagree
  generalize applyAll parsers invocation schema state second = other at hagree
  cases hagree with
  | fault one other => exact .fault one other
  | alike halike => exact halike.applyAll hnames rest

theorem Agree.cons {first second : List Occurrence}
    (hagree : ∀ next, apply parsers invocation schema state occurrence = .ok next →
      Agree (applyAll parsers invocation schema next first)
        (applyAll parsers invocation schema next second)) :
    Agree (applyAll parsers invocation schema state (occurrence :: first))
      (applyAll parsers invocation schema state (occurrence :: second)) := by
  rw [applyAll, applyAll]
  cases happly : apply parsers invocation schema state occurrence with
  | error fault => exact .fault fault fault
  | ok next => exact hagree next happly

def State.Furnished (schema : CommandSchema) (state : State) : Prop :=
  ∀ option ∈ schema.options, ∃ value, Table.get? option.slot state.command.values =
    some value

theorem furnished_new {fresh : Instance} (hnew : schema.newInstance = .ok fresh) :
    State.Furnished schema ⟨fresh, [], []⟩ := by
  intro option hoption
  obtain ⟨value, hvalue, -⟩ := @accountedFor_new [] schema fresh hnew option hoption
  exact ⟨value, hvalue⟩

theorem State.Furnished.apply (hnames : schema.NamesApart) {next : State}
    (hfurnished : state.Furnished schema)
    (happly : Binding.apply parsers invocation schema state occurrence = .ok next) :
    next.Furnished schema := by
  obtain ⟨target, update, value, -, -, hcommand, -⟩ := brings_of_apply hnames happly
  intro option hoption
  rw [hcommand, Instance.set]
  by_cases hslot : option.slot = target.slot
  · exact ⟨value, by rw [hslot, Table.get?_set_self]⟩
  · rw [Table.get?_set_of_ne hslot]
    exact hfurnished option hoption

private theorem State.Furnished.applyAll (hnames : schema.NamesApart) {final : State}
    (hfurnished : state.Furnished schema) {occurrences : List Occurrence}
    (happly : Binding.applyAll parsers invocation schema state occurrences =
      .ok final) :
    final.Furnished schema := by
  induction occurrences generalizing state with
  | nil =>
      cases happly
      exact hfurnished
  | cons occurrence rest ih =>
      obtain ⟨next, hnext, hrest⟩ := exists_of_applyAll_cons happly
      exact ih (hfurnished.apply hnames hnext) hrest

theorem slotAfter_stored (hslot : option.slot ≠ target.slot)
    (hlong : option.long ≠ target.long) (returned : List (Nat × String))
    (value : Value) :
    (state.stored target returned value).slotAfter option update =
      state.slotAfter option update := by
  cases update with
  | replace given => rfl
  | append items =>
      have hvalue : (state.stored target returned value).command.value option.slot =
          state.command.value option.slot := by
        change (Table.get? option.slot
          (Table.set target.slot value state.command.values)).getD _ = _
        rw [Table.get?_set_of_ne hslot]
        rfl
      have hseen : (state.stored target returned value).seen.contains option.long =
          state.seen.contains option.long := by
        rw [List.contains_eq_mem, List.contains_eq_mem]
        apply decide_eq_decide.mpr
        rw [State.stored, State.mem_markSeen]
        exact or_iff_left hlong
      rw [State.slotAfter, State.slotAfter, hvalue, hseen]

theorem markSeen_of_mem {long : String} (hseen : long ∈ state.seen) :
    state.markSeen long = state := by
  simp only [State.markSeen, List.contains_eq_mem, hseen, decide_true, if_true]

private theorem seen_markSeen_of_notMem {long : String} (hnew : long ∉ state.seen) :
    (state.markSeen long).seen = state.seen ++ [long] := by
  simp only [State.markSeen, List.contains_eq_mem, hnew, decide_false,
    Bool.false_eq_true, if_false]

private theorem perm_markSeen (state : State) {first second : String}
    (hne : first ≠ second) : ((state.markSeen first).markSeen second).seen.Perm
      ((state.markSeen second).markSeen first).seen := by
  by_cases hfirst : first ∈ state.seen
  · rw [markSeen_of_mem hfirst,
      markSeen_of_mem (State.mem_markSeen.mpr (.inl hfirst))]
  · by_cases hsecond : second ∈ state.seen
    · rw [markSeen_of_mem hsecond,
        markSeen_of_mem (State.mem_markSeen.mpr (.inl hsecond))]
    · have hstill : second ∉ (state.markSeen first).seen := fun hseen =>
        (State.mem_markSeen.mp hseen).elim hsecond hne.symm
      have hstill' : first ∉ (state.markSeen second).seen := fun hseen =>
        (State.mem_markSeen.mp hseen).elim hfirst hne
      rw [seen_markSeen_of_notMem hstill, seen_markSeen_of_notMem hstill',
        seen_markSeen_of_notMem hfirst, seen_markSeen_of_notMem hsecond,
        List.append_assoc, List.append_assoc]
      exact (List.Perm.swap second first []).append_left state.seen

private theorem stored_comm (hslot : option.slot ≠ target.slot)
    (hlong : option.long ≠ target.long) (hfurnished : state.Furnished schema)
    (hoption : option ∈ schema.options) (htarget : target ∈ schema.options)
    (returned : List (Nat × String)) (value other : Value) :
    ((state.stored target returned other).stored option [] value).Alike
      ((state.stored option [] value).stored target returned other) := by
  refine ⟨?_, perm_markSeen _ hlong.symm, ?_⟩
  · change Instance.set (Instance.set _ _ _) _ _ =
      Instance.set (Instance.set _ _ _) _ _
    simp only [Instance.set]
    rw [Table.set_comm hslot (hfurnished option hoption) (hfurnished target htarget)]
  · change state.returned ++ returned ++ [] = state.returned ++ [] ++ returned
    rw [List.append_nil, List.append_nil]

private theorem stored_stored (state : State) (option : OptionSchema)
    (first second : Value) :
    (state.stored option [] first).stored option [] second = state.stored option []
      second := by
  have hseen : option.long ∈ (state.stored option [] first).seen :=
    State.mem_markSeen.mpr (.inr rfl)
  refine (markSeen_of_mem ?_).trans ?_
  · exact hseen
  · simp only [State.stored, State.markSeen, Instance.set, Table.set_set,
      List.append_nil]

theorem slotAfter_append (state : State) (option : OptionSchema)
    (items more : List Value) :
    state.slotAfter option (.append (items ++ more)) =
      state.slotAfter option (.append items) >>= fun value =>
        (state.stored option [] value).slotAfter option (.append more) := by
  have hstart (value : Value) :
      (state.stored option [] value).slotAfter option (.append more) =
        extend value more := by
    have hseen : option.long ∈ (state.stored option [] value).seen :=
      State.mem_markSeen.mpr (.inr rfl)
    have hvalue : (state.stored option [] value).command.value option.slot =
        value := by
      change (Table.get? option.slot
        (Table.set option.slot value state.command.values)).getD _ = _
      rw [Table.get?_set_self, Option.getD_some]
    rw [State.slotAfter, List.contains_eq_mem, if_pos (decide_eq_true hseen), hvalue]
  simp only [hstart]
  rw [State.slotAfter, State.slotAfter]
  generalize (if state.seen.contains option.long then state.command.value option.slot
    else .list []) = start
  cases start with
  | list old =>
      change Except.ok (Value.list (old ++ (items ++ more))) =
        .ok (.list (old ++ items ++ more))
      rw [List.append_assoc]
  | _ => rfl

theorem agree_of_offends (hnames : schema.NamesApart)
    {first second : List Occurrence} {one other : Occurrence} {fault fault' : Fault}
    (hone : Offends parsers invocation schema one fault) (hfirst : one ∈ first)
    (hother : Offends parsers invocation schema other fault')
    (hsecond : other ∈ second) :
    Agree (applyAll parsers invocation schema left first)
      (applyAll parsers invocation schema right second) := by
  cases hleft : applyAll parsers invocation schema left first with
  | ok final => exact absurd hone (sound_of_applyAll hnames hleft one hfirst fault)
  | error cause =>
      cases hright : applyAll parsers invocation schema right second with
      | ok final =>
          exact absurd hother (sound_of_applyAll hnames hright other hsecond fault')
      | error cause' => exact .fault cause cause'

theorem applyAll_singleton (occurrence : Occurrence) :
    applyAll parsers invocation schema state [occurrence] =
      apply parsers invocation schema state occurrence := by
  rw [applyAll]
  cases apply parsers invocation schema state occurrence <;> rfl

theorem applyAll_pair (first second : Occurrence) :
    applyAll parsers invocation schema state [first, second] =
      apply parsers invocation schema state first >>=
        fun next => apply parsers invocation schema next second := by
  rw [applyAll]
  cases apply parsers invocation schema state first with
  | error fault => rfl
  | ok next => exact applyAll_singleton second

def writesTo (schema : CommandSchema) (slot : String) (occurrence : Occurrence) :
    Bool :=
  (findOption schema occurrence).any fun option => option.slot = slot

/-- A mention of an option, with a value that is not quoted. -/
structure Gives (schema : CommandSchema) (option : OptionSchema)
    (occurrence : Occurrence) : Prop where
  found : findOption schema occurrence = some option
  valued : occurrence.hasValue = true
  plain : occurrence.quoted = false

variable {first second : Occurrence} {items : List Value}

theorem Gives.brings (hgives : Gives schema option occurrence)
    (hflag : option.isFlag = false) (hlist : option.isList = true)
    (hitems : (Conversion.elements false (occurrence.value.getD "")).mapM
      (Conversion.element parsers option) = .ok items) :
    Brings parsers schema occurrence option (.append items) :=
  .list (means_of_findOption hgives.found) hflag hlist hgives.valued
    (by rw [hgives.plain]; exact hitems)

theorem Gives.offends (hgives : Gives schema option occurrence)
    (hflag : option.isFlag = false) (hlist : option.isList = true) {cause : Fault}
    (hitems : (Conversion.elements false (occurrence.value.getD "")).mapM
      (Conversion.element parsers option) = .error cause) :
    ∃ fault, Offends parsers invocation schema occurrence fault := by
  have hmeans := means_of_findOption hgives.found
  have hconvert : Conversion.convert parsers option occurrence.quoted
      (occurrence.value.getD "") =
        .error cause := by
    rw [Conversion.convert, if_pos hlist, hgives.plain, hitems]
    rfl
  by_cases hcancelled : ∃ message, cause = .cancelled message
  · obtain ⟨message, rfl⟩ := hcancelled
    exact ⟨_, .cancelled hmeans hflag hgives.valued hconvert⟩
  · refine ⟨_, .notConverted hmeans hflag hgives.valued hconvert ?_⟩
    intro message hcause
    exact hcancelled ⟨message, hcause⟩

private theorem Gives.givenBack_eq (hgives : Gives schema option occurrence)
    (hflag : option.isFlag = false) :
    givenBack schema occurrence = none := by
  simp only [givenBack, hgives.found, Option.any_some, hflag, Bool.false_and,
    Bool.false_eq_true, if_false]

theorem Gives.apply_eq (hgives : Gives schema option occurrence)
    (hnames : schema.NamesApart) (hflag : option.isFlag = false)
    (hbrings : Brings parsers schema occurrence option update) (state : State) :
    apply parsers invocation schema state occurrence =
      (state.slotAfter option update).map (state.stored option []) := by
  rw [apply_of_brings hnames hbrings, hgives.givenBack_eq hflag]
  rfl

private theorem agree_swap (hnames : schema.NamesApart)
    (hfurnished : state.Furnished schema) (hflag : option.isFlag = false)
    (hgives : Gives schema option occurrence) {other : Occurrence}
    (hother : writesTo schema option.slot other = false) :
    Agree (applyAll parsers invocation schema state [other, occurrence])
      (applyAll parsers invocation schema state [occurrence, other]) := by
  rcases brings_or_offends parsers invocation schema other with
    ⟨target, update, hbrings⟩ | ⟨fault, hoffends⟩
  · rcases brings_or_offends parsers invocation schema occurrence with
      ⟨found, given, hgiven⟩ | ⟨fault, hoffends⟩
    · obtain rfl := hgiven.means.unique hnames (means_of_findOption hgives.found)
      have hslot : found.slot ≠ target.slot := by
        rw [writesTo, findOption_of_means hnames hbrings.means,
          Option.any_some] at hother
        exact Ne.symm (of_decide_eq_false hother)
      have hlong : found.long ≠ target.long :=
        fun hsame => hslot (congrArg OptionSchema.slot
          (hnames.eq_of_long hgiven.means.mem hbrings.means.mem
            (congrArg Text.lower hsame)))
      rw [applyAll_pair, applyAll_pair, apply_of_brings hnames hbrings,
        hgives.apply_eq hnames hflag hgiven]
      cases hone : state.slotAfter found given with
      | error fault =>
          cases hcause : state.slotAfter target update with
          | error cause => exact .fault cause fault
          | ok value =>
              change Agree (apply parsers invocation schema
                (state.stored target _ value) occurrence) _
              rw [hgives.apply_eq hnames hflag hgiven,
                slotAfter_stored hslot hlong, hone]
              exact .fault fault fault
      | ok value =>
          change Agree _ (apply parsers invocation schema
            (state.stored found [] value) other)
          rw [apply_of_brings hnames hbrings, slotAfter_stored hslot.symm hlong.symm]
          cases state.slotAfter target update with
          | error fault => exact .fault fault fault
          | ok second =>
              change Agree (apply parsers invocation schema
                (state.stored target _ second) occurrence) _
              rw [hgives.apply_eq hnames hflag hgiven,
                slotAfter_stored hslot hlong, hone]
              exact .alike (stored_comm hslot hlong hfurnished hgiven.means.mem
                hbrings.means.mem _ value second)
    · exact agree_of_offends hnames hoffends (by simp) hoffends (by simp)
  · exact agree_of_offends hnames hoffends (by simp) hoffends (by simp)

def merged (first second : Occurrence) : Occurrence :=
  { first with value := some (first.value.getD "" ++ "," ++ second.value.getD "") }

theorem Gives.merged (hfirst : Gives schema option first) (second : Occurrence) :
    Gives schema option (merged first second) :=
  ⟨hfirst.found, hfirst.valued, hfirst.plain⟩

private theorem mapM_merged (parsers : Parsers) (option : OptionSchema)
    (first second : Occurrence) :
    (Conversion.elements false ((merged first second).value.getD "")).mapM
        (Conversion.element parsers option) =
      ((Conversion.elements false (first.value.getD "")).mapM
        (Conversion.element parsers option)) >>= fun items =>
      ((Conversion.elements false (second.value.getD "")).mapM
        (Conversion.element parsers option)) >>= fun more =>
          pure (items ++ more) := by
  change (Conversion.elements false
    (first.value.getD "" ++ "," ++ second.value.getD "")).mapM _ = _
  rw [Conversion.elements_comma, List.mapM_append]

private theorem agree_merged (hnames : schema.NamesApart)
    (hflag : option.isFlag = false) (hlist : option.isList = true)
    (hfirst : Gives schema option first) (hsecond : Gives schema option second) :
    Agree (applyAll parsers invocation schema state [first, second])
      (applyAll parsers invocation schema state [merged first second]) := by
  have hmerged := hfirst.merged second
  have hboth := mapM_merged parsers option first second
  cases hitems : (Conversion.elements false (first.value.getD "")).mapM
      (Conversion.element parsers option) with
  | error cause =>
      rw [hitems] at hboth
      obtain ⟨fault, hoffends⟩ := hfirst.offends hflag hlist hitems
      obtain ⟨fault', hoffends'⟩ := hmerged.offends hflag hlist hboth
      exact agree_of_offends hnames hoffends (by simp) hoffends' (by simp)
  | ok items =>
      rw [hitems] at hboth
      cases hmore : (Conversion.elements false (second.value.getD "")).mapM
          (Conversion.element parsers option) with
      | error cause =>
          rw [hmore] at hboth
          obtain ⟨fault, hoffends⟩ := hsecond.offends hflag hlist hmore
          obtain ⟨fault', hoffends'⟩ := hmerged.offends hflag hlist hboth
          exact agree_of_offends hnames hoffends (by simp) hoffends' (by simp)
      | ok more =>
          rw [hmore] at hboth
          have hone := hfirst.brings hflag hlist hitems
          have htwo := hsecond.brings hflag hlist hmore
          have hall := hmerged.brings hflag hlist hboth
          rw [applyAll_pair, applyAll_singleton, hfirst.apply_eq hnames hflag hone,
            hmerged.apply_eq hnames hflag hall, slotAfter_append]
          cases state.slotAfter option (.append items) with
          | error fault => exact .fault fault fault
          | ok value =>
              change Agree
                (apply parsers invocation schema
                  (state.stored option [] value) second)
                (((state.stored option [] value).slotAfter option
                  (.append more)).map _)
              rw [hsecond.apply_eq hnames hflag htwo]
              cases (state.stored option [] value).slotAfter option
                (.append more) with
              | error fault => exact .fault fault fault
              | ok final =>
                  change Agree (.ok ((state.stored option [] value).stored option
                    [] final)) _
                  rw [stored_stored]
                  exact .refl _

/-- A part of a line that gives the values of an option, and nothing else for its
slot. -/
structure Spells (schema : CommandSchema) (option : OptionSchema)
    (values : List String) (stretch : List Occurrence) : Prop where
  gives : ∀ occurrence ∈ stretch, writesTo schema option.slot occurrence = true →
    Gives schema option occurrence
  values : (stretch.filter (writesTo schema option.slot)).map (fun occurrence =>
    occurrence.value.getD "") = values

/-- What a part of a line says about other slots. -/
def aside (schema : CommandSchema) (option : OptionSchema)
    (stretch : List Occurrence) :
    List Occurrence :=
  stretch.filter fun occurrence => !writesTo schema option.slot occurrence

variable {stretch mentions rest : List Occurrence}

private theorem agree_past (hnames : schema.NamesApart)
    (hfurnished : state.Furnished schema) (hflag : option.isFlag = false)
    (hmentions : ∀ mention ∈ mentions, Gives schema option mention)
    (hother : writesTo schema option.slot occurrence = false) :
    Agree (applyAll parsers invocation schema state
      (occurrence :: (mentions ++ rest)))
        (applyAll parsers invocation schema state
          (mentions ++ occurrence :: rest)) := by
  induction mentions generalizing state with
  | nil => exact .refl _
  | cons mention mentions ih =>
      obtain ⟨hmention, hmentions⟩ := List.forall_mem_cons.mp hmentions
      have hswap : Agree (applyAll parsers invocation schema state
          [occurrence, mention])
            (applyAll parsers invocation schema state [mention, occurrence]) :=
        agree_swap hnames hfurnished hflag hmention hother
      refine (hswap.append hnames (mentions ++ rest)).trans
        (.cons fun next hnext => ?_)
      exact ih (hfurnished.apply hnames hnext) hmentions

/-- The mentions of a list may come before everything else in their part of the
line. -/
theorem agree_first (hnames : schema.NamesApart)
    (hfurnished : state.Furnished schema) (hflag : option.isFlag = false)
    (hgives : ∀ occurrence ∈ stretch, writesTo schema option.slot occurrence = true →
      Gives schema option occurrence) :
    Agree (applyAll parsers invocation schema state stretch)
      (applyAll parsers invocation schema state
        (stretch.filter (writesTo schema option.slot) ++
          aside schema option stretch)) := by
  induction stretch generalizing state with
  | nil => exact .refl _
  | cons occurrence rest ih =>
      obtain ⟨hfirst, hrest⟩ := List.forall_mem_cons.mp hgives
      have hstep : Agree (applyAll parsers invocation schema state
          (occurrence :: rest))
            (applyAll parsers invocation schema state (occurrence ::
              (rest.filter (writesTo schema option.slot) ++
                aside schema option rest))) :=
        .cons fun next hnext => ih (hfurnished.apply hnames hnext) hrest
      cases hwrites : writesTo schema option.slot occurrence with
      | true =>
          rw [aside, List.filter_cons_of_pos hwrites,
            List.filter_cons_of_neg (by simp [hwrites])]
          exact hstep
      | false =>
          rw [aside, List.filter_cons_of_neg (by simp [hwrites]),
            List.filter_cons_of_pos (by simp [hwrites])]
          refine hstep.trans (agree_past hnames hfurnished hflag ?_ hwrites)
          intro mention hmention
          obtain ⟨hmember, hmentioned⟩ := List.mem_filter.mp hmention
          exact hrest mention hmember hmentioned

private theorem apply_congr (hfirst : Gives schema option first)
    (hsecond : Gives schema option second)
    (hvalue : first.value.getD "" = second.value.getD "")
    (hflag : option.isFlag = false) :
    apply parsers invocation schema state first = apply parsers invocation schema
      state second := by
  simp only [apply, hfirst.found, hsecond.found, hflag, applyValue, hfirst.valued,
    hsecond.valued, hfirst.plain, hsecond.plain, hvalue, Bool.false_eq_true,
    if_false]

private theorem agree_gathered (hnames : schema.NamesApart)
    (hflag : option.isFlag = false) (hlist : option.isList = true)
    (hmentions : ∀ mention ∈ first :: mentions, Gives schema option mention)
    (hsecond : Gives schema option second)
    (hvalue : second.value.getD "" =
      Text.join "," ((first :: mentions).map fun mention =>
      mention.value.getD "")) :
    Agree (applyAll parsers invocation schema state (first :: mentions))
      (applyAll parsers invocation schema state [second]) := by
  induction mentions generalizing first with
  | nil =>
      rw [List.map_singleton, Text.join, String.intercalate_singleton] at hvalue
      rw [applyAll_singleton, applyAll_singleton,
        apply_congr (hmentions first List.mem_cons_self) hsecond hvalue.symm hflag]
      exact .refl _
  | cons next mentions ih =>
      simp only [List.forall_mem_cons] at hmentions
      obtain ⟨hfirst, hnext, hrest⟩ := hmentions
      have hmerged : Agree (applyAll parsers invocation schema state [first, next])
          (applyAll parsers invocation schema state [merged first next]) :=
        agree_merged hnames hflag hlist hfirst hnext
      refine (hmerged.append hnames mentions).trans
        (ih (List.forall_mem_cons.mpr ⟨hfirst.merged next, hrest⟩) ?_)
      rw [hvalue]
      simp only [List.map_cons, Text.join, merged, Option.getD_some,
        String.intercalate_cons_cons, String.intercalate_cons_append]

theorem Spells.exists_mentions (hspells : Spells schema option values stretch)
    (hsome : values ≠ []) :
    ∃ first mentions, stretch.filter (writesTo schema option.slot) =
      first :: mentions ∧
      (∀ mention ∈ first :: mentions, Gives schema option mention) ∧
      (first :: mentions).map (fun mention => mention.value.getD "") = values := by
  have hgives : ∀ mention ∈ stretch.filter (writesTo schema option.slot),
      Gives schema option mention := by
    intro mention hmention
    obtain ⟨hmember, hwrites⟩ := List.mem_filter.mp hmention
    exact hspells.gives mention hmember hwrites
  have hvalues := hspells.values
  cases hmentions : stretch.filter (writesTo schema option.slot) with
  | nil =>
      rw [hmentions] at hvalues
      exact absurd hvalues.symm hsome
  | cons first mentions =>
      rw [hmentions] at hgives hvalues
      exact ⟨first, mentions, rfl, hgives, hvalues⟩

/-- The values may all be given in one mention at the beginning. -/
theorem Spells.agree (hspells : Spells schema option values stretch)
    (hnames : schema.NamesApart) (hflag : option.isFlag = false)
    (hlist : option.isList = true) (hsome : values ≠ [])
    (hfurnished : state.Furnished schema) (hgives : Gives schema option occurrence)
    (hvalue : occurrence.value.getD "" = Text.join "," values) :
    Agree (applyAll parsers invocation schema state stretch)
      (applyAll parsers invocation schema state
        (occurrence :: aside schema option stretch)) := by
  obtain ⟨first, mentions, hfilter, hmentions, hvalues⟩ :=
    hspells.exists_mentions hsome
  have hfront : Agree (applyAll parsers invocation schema state stretch)
      (applyAll parsers invocation schema state
        (stretch.filter (writesTo schema option.slot) ++
          aside schema option stretch)) :=
    agree_first hnames hfurnished hflag hspells.gives
  have hgathered : Agree (applyAll parsers invocation schema state
      (first :: mentions))
        (applyAll parsers invocation schema state [occurrence]) :=
    agree_gathered hnames hflag hlist hmentions hgives
      (hvalue.trans (by rw [hvalues]))
  rw [hfilter] at hfront
  exact hfront.trans (hgathered.append hnames (aside schema option stretch))

theorem applyAll_withOptions (options occurrences : List Occurrence) :
    applyAll parsers { invocation with options } schema state occurrences =
      applyAll parsers invocation schema state occurrences := by
  induction occurrences generalizing state with
  | nil => rfl
  | cons occurrence rest ih =>
      have hsame : apply parsers { invocation with options } schema state
          occurrence =
            apply parsers invocation schema state occurrence := rfl
      rw [applyAll, applyAll, hsame]
      cases apply parsers invocation schema state occurrence with
      | error fault => rfl
      | ok next => exact ih

private theorem bindTo_eq_of_agree {options others : List Occurrence}
    (hagree : ∀ fresh, schema.newInstance = .ok fresh →
      Agree (applyAll parsers invocation schema ⟨fresh, [], []⟩ options)
        (applyAll parsers invocation schema ⟨fresh, [], []⟩ others)) :
    (bindTo parsers { invocation with options } schema).toOption =
      (bindTo parsers { invocation with options := others } schema).toOption := by
  rw [bindTo, bindTo]
  cases hnew : schema.newInstance with
  | error fault => rfl
  | ok fresh =>
      simp only [applyAll_withOptions]
      specialize hagree fresh hnew
      generalize applyAll parsers invocation schema ⟨fresh, [], []⟩ options =
        one at hagree
      generalize applyAll parsers invocation schema ⟨fresh, [], []⟩ others =
        other at hagree
      cases hagree with
      | fault first second => rfl
      | @alike left right halike =>
          have hmissing : firstMissing schema left = firstMissing schema right := by
            simp only [firstMissing, halike.contains_eq]
          simp only [hmissing, halike.command, halike.returned, boundNote,
            halike.seen.length_eq]
          cases firstMissing schema right <;> rfl

private theorem get?_applyAll {slot : String} {final : State}
    (hnames : schema.NamesApart)
    (hother : ∀ occurrence ∈ rest, writesTo schema slot occurrence = false)
    (happly : applyAll parsers invocation schema state rest = .ok final) :
    Table.get? slot final.command.values = Table.get? slot state.command.values := by
  induction rest generalizing state with
  | nil =>
      cases happly
      rfl
  | cons occurrence rest ih =>
      obtain ⟨hfirst, hrest⟩ := List.forall_mem_cons.mp hother
      obtain ⟨next, hnext, happly⟩ := exists_of_applyAll_cons happly
      obtain ⟨target, update, value, hbrings, -, hcommand, -⟩ :=
        brings_of_apply hnames hnext
      rw [writesTo, findOption_of_means hnames hbrings.means,
        Option.any_some] at hfirst
      rw [ih hrest happly, hcommand, Instance.set,
        Table.get?_set_of_ne (Ne.symm (of_decide_eq_false hfirst))]

private theorem aside_eq_false
    (hoccurrence : occurrence ∈ aside schema option stretch) :
    writesTo schema option.slot occurrence = false := by
  simpa using (List.mem_filter.mp hoccurrence).2

theorem Gives.agree_new (hgives : Gives schema option occurrence)
    (hnames : schema.NamesApart) (hflag : option.isFlag = false)
    (hlist : option.isList = true) (fresh : Instance) :
    Agree (applyAll parsers invocation schema ⟨fresh, [], []⟩ (occurrence :: rest))
      (Conversion.convert parsers option false (occurrence.value.getD "") >>=
        fun value =>
        applyAll parsers invocation schema
          (State.stored ⟨fresh, [], []⟩ option [] value) rest) := by
  rw [applyAll, Conversion.convert, if_pos hlist]
  cases hitems : (Conversion.elements false (occurrence.value.getD "")).mapM
      (Conversion.element parsers option) with
  | ok items =>
      rw [hgives.apply_eq hnames hflag (hgives.brings hflag hlist hitems)]
      exact .refl _
  | error cause =>
      obtain ⟨fault, hoffends⟩ := hgives.offends hflag hlist hitems
      rw [apply_of_offends hnames hoffends]
      exact .fault fault cause

theorem Spells.agree_new (hspells : Spells schema option values stretch)
    (hnames : schema.NamesApart) (hflag : option.isFlag = false)
    (hlist : option.isList = true) (hsome : values ≠ []) {fresh : Instance}
    (hnew : schema.newInstance = .ok fresh) :
    Agree (applyAll parsers invocation schema ⟨fresh, [], []⟩ stretch)
      (Conversion.convert parsers option false (Text.join "," values) >>=
        fun value =>
        applyAll parsers invocation schema
          (State.stored ⟨fresh, [], []⟩ option [] value)
          (aside schema option stretch)) := by
  obtain ⟨first, mentions, -, hmentions, -⟩ := hspells.exists_mentions hsome
  have hfirst := hmentions first List.mem_cons_self
  have hgives : Gives schema option
      { first with value := some (Text.join "," values) } :=
    ⟨hfirst.found, hfirst.valued, hfirst.plain⟩
  exact (hspells.agree hnames hflag hlist hsome (furnished_new hnew)
    hgives rfl).trans
    (hgives.agree_new hnames hflag hlist fresh)

private theorem Spells.get?_bindTo (hspells : Spells schema option values stretch)
    (hnames : schema.NamesApart) (hflag : option.isFlag = false)
    (hlist : option.isList = true) (hsome : values ≠ []) {bound : BoundCommand}
    {note : Journal.Note} (hbind : bindTo parsers
      { invocation with options := stretch } schema = .ok (bound, note)) :
    ∃ value, Conversion.convert parsers option false (Text.join "," values) =
      .ok value ∧
      Table.get? option.slot bound.command.values = some value := by
  obtain ⟨fresh, final, hnew, happly, -, hcommand⟩ := applyAll_of_bindTo hbind
  rw [applyAll_withOptions] at happly
  have hagree : Agree
      (applyAll parsers invocation schema ⟨fresh, [], []⟩ stretch) _ :=
    hspells.agree_new hnames hflag hlist hsome hnew
  rw [happly] at hagree
  cases hconvert : Conversion.convert parsers option false
    (Text.join "," values) with
  | error cause => rw [hconvert] at hagree; cases hagree
  | ok value =>
      rw [hconvert] at hagree
      change Agree _ (applyAll parsers invocation schema _ _) at hagree
      cases hrest : applyAll parsers invocation schema
          (State.stored ⟨fresh, [], []⟩ option [] value)
            (aside schema option stretch) with
      | error fault => rw [hrest] at hagree; cases hagree
      | ok last =>
          rw [hrest] at hagree
          cases hagree with
          | alike halike =>
              refine ⟨value, rfl, ?_⟩
              rw [hcommand, halike.command,
                get?_applyAll hnames (fun _ hmember => aside_eq_false hmember) hrest]
              exact Table.get?_set_self _ _ _

theorem Spells.bindTo_ok (hspells : Spells schema option values stretch)
    (hnames : schema.NamesApart) (hflag : option.isFlag = false)
    (hlist : option.isList = true) (hsome : values ≠ [])
    (halone : aside schema option stretch = [])
    (hmade : ∃ fresh, schema.newInstance = .ok fresh)
    (hrequired : ∀ other ∈ schema.options, other.required = true → other = option)
    {value : Value} (hconvert : Conversion.convert parsers option false
      (Text.join "," values) = .ok value) : ∃ bound note,
      bindTo parsers { invocation with options := stretch } schema =
        .ok (bound, note) := by
  obtain ⟨fresh, hnew⟩ := hmade
  have hagree : Agree
      (applyAll parsers invocation schema ⟨fresh, [], []⟩ stretch) _ :=
    hspells.agree_new hnames hflag hlist hsome hnew
  rw [hconvert, halone] at hagree
  cases happly : applyAll parsers invocation schema ⟨fresh, [], []⟩ stretch with
  | error fault => rw [happly] at hagree; cases hagree
  | ok final =>
      rw [happly] at hagree
      cases hagree with
      | alike halike =>
          have hseen : option.long ∈ final.seen :=
            halike.seen.mem_iff.mpr (State.mem_markSeen.mpr (.inr rfl))
          have hnone : firstMissing schema final = none := by
            apply List.find?_eq_none.mpr
            intro other hother hmissing
            simp only [Bool.and_eq_true, Bool.not_eq_true', List.contains_eq_mem,
              decide_eq_false_iff_not] at hmissing
            exact hmissing.2 (hrequired other hother hmissing.1 ▸ hseen)
          rw [bindTo]
          simp only [hnew, applyAll_withOptions, happly, hnone]
          exact ⟨_, _, rfl⟩

private theorem Spells.bindTo_eq {before after split single : List Occurrence}
    (hsplit : Spells schema option values split)
    (hsingle : Spells schema option [Text.join "," values] single)
    (haside : aside schema option split = aside schema option single)
    (hnames : schema.NamesApart) (hflag : option.isFlag = false)
    (hlist : option.isList = true) (hsome : values ≠ []) :
    (bindTo parsers { invocation with options := before ++ split ++ after }
      schema).toOption =
      (bindTo parsers { invocation with options := before ++ single ++ after }
        schema).toOption := by
  apply bindTo_eq_of_agree
  intro fresh hnew
  rw [List.append_assoc, List.append_assoc, applyAll_append_eq, applyAll_append_eq]
  cases hbefore : applyAll parsers invocation schema ⟨fresh, [], []⟩ before with
  | error fault => exact .fault fault fault
  | ok middle =>
      have hfurnished := (furnished_new hnew).applyAll hnames hbefore
      obtain ⟨mention, mentions, -, hmentions, hvalues⟩ :=
        hsingle.exists_mentions (List.cons_ne_nil _ _)
      have hmention := hmentions mention List.mem_cons_self
      have hvalue : mention.value.getD "" = Text.join "," values :=
        List.head_eq_of_cons_eq hvalues
      have hleft : Agree (applyAll parsers invocation schema middle split) _ :=
        hsplit.agree hnames hflag hlist hsome hfurnished hmention hvalue
      have hright : Agree (applyAll parsers invocation schema middle single) _ :=
        hsingle.agree hnames hflag hlist (List.cons_ne_nil _ _) hfurnished hmention
          (hvalue.trans String.intercalate_singleton.symm)
      rw [haside] at hleft
      exact (hleft.trans hright.symm).append hnames after

/-- It makes no difference in how many mentions the items of a list are given. They
can be converted together if each part can. Two lines that differ only in this are
bound alike, and the slot gets what the joined parts are converted to. Texts without
a comma come back as they are, and a quoted value is one item. -/
theorem bindTo_list_in_parts (hnames : schema.NamesApart)
    (hflag : option.isFlag = false) (hlist : option.isList = true) :
    (∀ values ≠ [],
      (∀ value ∈ values, ∃ found, Conversion.convert parsers option false value =
        .ok found) ↔
        ∃ found, Conversion.convert parsers option false (Text.join "," values) =
          .ok found) ∧
    (∀ (invocation : Invocation) (before split single after : List Occurrence),
      ∀ values ≠ [], Spells schema option values split → Spells schema option
        [Text.join "," values] single →
      aside schema option split = aside schema option single →
      (bindTo parsers { invocation with options := before ++ split ++ after }
        schema).toOption =
        (bindTo parsers { invocation with options := before ++ single ++ after }
          schema).toOption) ∧
    (∀ (invocation : Invocation) (stretch : List Occurrence), ∀ values ≠ [],
      Spells schema option values stretch →
      (∀ bound note,
        bindTo parsers { invocation with options := stretch } schema =
          .ok (bound, note) →
        ∃ value, Conversion.convert parsers option false (Text.join "," values) =
          .ok value ∧
          Table.get? option.slot bound.command.values = some value) ∧
      (aside schema option stretch = [] → (∃ fresh, schema.newInstance = .ok fresh) →
        (∀ other ∈ schema.options, other.required = true → other = option) →
        ∀ value, Conversion.convert parsers option false (Text.join "," values) =
          .ok value →
        ∃ bound note,
          bindTo parsers { invocation with options := stretch } schema =
            .ok (bound, note))) ∧
    (option.kind = .string → ∀ texts ≠ [], (∀ text ∈ texts, ',' ∉ text.toList) →
      Conversion.convert parsers option false (Text.join "," texts) =
        .ok (.list (texts.map .text))) ∧
    ∀ raw, Conversion.convert parsers option true raw =
      (Conversion.element parsers option raw).map fun item => .list [item] := by
  refine ⟨?_, ?_, ?_, ?_, ?_⟩
  · intro values hsome
    exact (Conversion.convert_join_ok_iff hlist hsome).symm
  · intro invocation before split single after values hsome hsplit hsingle haside
    exact hsplit.bindTo_eq hsingle haside hnames hflag hlist hsome
  · intro invocation stretch values hsome hspells
    refine ⟨?_, ?_⟩
    · intro bound note hbind
      exact hspells.get?_bindTo hnames hflag hlist hsome hbind
    · intro halone hmade hrequired value hconvert
      exact hspells.bindTo_ok hnames hflag hlist hsome halone hmade
        hrequired hconvert
  · intro hkind texts hsome hplain
    exact Conversion.convert_texts hlist hkind hsome hplain
  · intro raw
    exact Conversion.convert_quoted hlist raw

/-! The same tags in two mentions, with another option between them, and in one. -/

def twoMentions : List Occurrence :=
  [ ⟨"to", true, some "me", true, false, false, 0⟩,
    ⟨"t", false, some "a,b", true, false, true, 0⟩,
    ⟨"n", false, some "1", true, false, true, 0⟩,
    ⟨"Tag", true, some ",c", true, false, true, 0⟩ ]

def oneMention : List Occurrence :=
  [ ⟨"to", true, some "me", true, false, false, 0⟩,
    ⟨"n", false, some "1", true, false, true, 0⟩,
    ⟨"t", false, some "a,b,,c", true, false, true, 0⟩ ]

private theorem spells_twoMentions :
    Spells mixedSchema tagOption ["a,b", ",c"] twoMentions := by
  refine ⟨?_, rfl⟩
  simp only [twoMentions, List.forall_mem_cons, List.not_mem_nil, false_implies,
    implies_true, and_true]
  exact ⟨nofun, fun _ => ⟨rfl, rfl, rfl⟩, nofun, fun _ => ⟨rfl, rfl, rfl⟩⟩

private theorem spells_oneMention :
    Spells mixedSchema tagOption [Text.join "," ["a,b", ",c"]] oneMention := by
  refine ⟨?_, rfl⟩
  simp only [oneMention, List.forall_mem_cons, List.not_mem_nil, false_implies,
    implies_true, and_true]
  exact ⟨nofun, nofun, fun _ => ⟨rfl, rfl, rfl⟩⟩

theorem bindTo_list_in_parts_tags :
    mixedSchema.NamesApart ∧ tagOption.isFlag = false ∧ tagOption.isList = true ∧
      Pipeline.parse "tool --to=me -t a,b -n 1 --Tag ,c" =
        .ok (some [⟨"tool", [], twoMentions, ⟨none, none⟩⟩]) ∧
      Pipeline.parse "tool --to=me -n 1 -t a,b,,c" =
        .ok (some [⟨"tool", [], oneMention, ⟨none, none⟩⟩]) ∧
      ∃ bound note,
        bindTo [] ⟨"tool", [], twoMentions, ⟨none, none⟩⟩ mixedSchema =
          .ok (bound, note) ∧
        (bindTo [] ⟨"tool", [], oneMention, ⟨none, none⟩⟩ mixedSchema).toOption =
          some (bound, note) ∧
        Table.get? "tag" bound.command.values =
          some (.list [.text "a", .text "b", .text "", .text "c"]) := by
  have hnames := wellFormed_mixedSchema.namesApart
  obtain ⟨-, hsame, hslot, htexts, -⟩ :=
    @bindTo_list_in_parts [] mixedSchema tagOption hnames rfl rfl
  obtain ⟨bound, note, hbind⟩ : ∃ bound note,
      bindTo [] ⟨"tool", [], twoMentions, ⟨none, none⟩⟩ mixedSchema =
        .ok (bound, note) :=
    ⟨_, _, rfl⟩
  have hone := hsame ⟨"tool", [], [], ⟨none, none⟩⟩ [] twoMentions oneMention [] _
    (List.cons_ne_nil _ _) spells_twoMentions spells_oneMention rfl
  obtain ⟨value, hconvert, hvalue⟩ :=
    (hslot ⟨"tool", [], [], ⟨none, none⟩⟩ twoMentions _ (List.cons_ne_nil _ _)
      spells_twoMentions).1 bound note hbind
  have hjoined := htexts rfl ["a", "b", "", "c"] (List.cons_ne_nil _ _) (by decide)
  refine ⟨hnames, rfl, rfl, rfl, rfl, bound, note, hbind, ?_, ?_⟩
  · exact hone.symm.trans (congrArg Except.toOption hbind)
  · obtain rfl := Except.ok.inj (hconvert.symm.trans hjoined)
    exact hvalue

end Binding

end PipeShell
