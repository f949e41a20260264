import PipeShell.Binding
import PipeShell.Proofs.Basic
import PipeShell.Proofs.ParserSteps

namespace PipeShell.Binding

open Pipeline

inductive Awaited where
  | nothing
  | path
  | value
  deriving DecidableEq, Repr

inductive Role where
  | name
  | argument
  | option
  | value
  | path
  | mark
  deriving DecidableEq, Repr

/-- A reader who knows the options of the command. -/
structure Reader where
  named : Bool
  optionsEnded : Bool
  awaited : Awaited
  deriving DecidableEq, Repr

def Reader.start : Reader := ⟨false, false, .nothing⟩

/-- A word that names one option, and attaches no value to it, asks for a value
unless the option is a flag. -/
def asksValue (schema : CommandSchema) (shape : Shape) : Bool :=
  match shape.lone? with
  | none => false
  | some (name, isLong) =>
      (if isLong then schema.findLong? name else schema.findShort? name).any
        fun option =>
        !option.isFlag

/-- Reads a token that no earlier one has asked for. -/
def Reader.readFresh (schema : CommandSchema) (reader : Reader) (token : Token) :
    Role × Reader :=
  match token.kind with
  | .word =>
      if !reader.named then (.name, { reader with named := true })
      else if reader.optionsEnded || Shape.of token.value = .argument then
        (.argument, reader)
      else if asksValue schema (Shape.of token.value) then
        (.option, { reader with awaited := .value })
      else (.option, reader)
  | .endOfOptions => (.mark, { reader with optionsEnded := true })
  | .pipe => (.mark, reader)
  | .redirectIn | .redirectOut | .redirectAppend =>
      (.mark, { reader with awaited := .path })

/-- Reads a token. Only a word that does not start with a dash can be a value. -/
def Reader.read (schema : CommandSchema) (reader : Reader) (token : Token) :
    Role × Reader :=
  match reader.awaited with
  | .path => (.path, { reader with awaited := .nothing })
  | .value =>
      if isOptionValue token then (.value, { reader with awaited := .nothing })
      else { reader with awaited := .nothing }.readFresh schema token
  | .nothing => reader.readFresh schema token

/-- The tokens that the reader takes for arguments. -/
def Reader.arguments (schema : CommandSchema) (reader : Reader) :
    List Token → List Token
  | [] => []
  | token :: rest =>
      match reader.read schema token with
      | (.argument, next) => token :: next.arguments schema rest
      | (_, next) => next.arguments schema rest

private theorem Reader.arguments_sublist (schema : CommandSchema) (reader : Reader)
    (tokens : List Token) : (reader.arguments schema tokens).Sublist tokens := by
  induction tokens generalizing reader with
  | nil => exact List.Sublist.slnil
  | cons token rest ih =>
      rw [Reader.arguments]
      split
      · exact (ih _).cons_cons token
      · exact (ih _).cons token

/-- An argument of the line in its place: found while reading, or given back by a
flag. -/
inductive ArgumentWord where
  | found (word : String)
  | returned (word : String)

namespace ArgumentWord

def word : ArgumentWord → String
  | .found word => word
  | .returned word => word

def finds : List ArgumentWord → List String
  | [] => []
  | .found word :: rest => word :: finds rest
  | .returned _ :: rest => finds rest

/-- The words that flags gave back, each with the number of words found before it;
`count` have been found already. -/
def returns (count : Nat) : List ArgumentWord → List (Nat × String)
  | [] => []
  | .found _ :: rest => returns (count + 1) rest
  | .returned word :: rest => (count, word) :: returns count rest

/-- Every word that was given back finds its place. Before `front` all is done: it
holds the words found and the words inserted so far. -/
theorem insertReturned_returns (placed : List ArgumentWord) (front : List String)
    (count inserted : Nat) (hfront : front.length = count + inserted) :
    insertReturned inserted (returns count placed) (front ++ finds placed) =
      front ++ placed.map word := by
  induction placed generalizing front count inserted with
  | nil => rfl
  | cons item rest ih =>
      cases item with
      | found word =>
          have hnext : (front ++ [word]).length = count + 1 + inserted := by
            rw [List.length_append, List.length_singleton]
            omega
          have hinsert := ih (front ++ [word]) (count + 1) inserted hnext
          rw [List.append_assoc, List.append_assoc] at hinsert
          exact hinsert
      | returned word =>
          have hnext : (front ++ [word]).length = count + (inserted + 1) := by
            rw [List.length_append, List.length_singleton]
            omega
          -- The words inserted so far have moved this place by as many.
          have hplace :
              (front ++ finds rest).insertIdx
                  (min (count + inserted) (front ++ finds rest).length) word =
                front ++ [word] ++ finds rest := by
            rw [Nat.min_eq_left (by rw [List.length_append]; omega), ← hfront,
              insertIdx_length_append, List.append_assoc, List.singleton_append]
          have hinsert := ih (front ++ [word]) count (inserted + 1) hnext
          rw [returns, finds, insertReturned, hplace, hinsert, List.append_assoc]
          rfl

end ArgumentWord

/-- The option that an occurrence names is there, and has a value unless it is a
flag. A flag may only have a word to give back. -/
structure Fits (schema : CommandSchema) (occurrence : Occurrence)
    (option : OptionSchema) :
    Prop where
  found : findOption schema occurrence = some option
  flag : option.isFlag = true → occurrence.hasValue = true → occurrence.spaced = true
  valued : option.isFlag = false → occurrence.hasValue = true

def givenBack (schema : CommandSchema) (occurrence : Occurrence) :
    Option (Nat × String) :=
  if (findOption schema occurrence).any OptionSchema.isFlag &&
    occurrence.hasValue then
    some (occurrence.argumentIndex, occurrence.value.getD "")
  else none

theorem Fits.givenBack_of_flag {schema : CommandSchema} {occurrence : Occurrence}
    {option : OptionSchema} (hfits : Fits schema occurrence option)
    (hflag : option.isFlag = true) :
    givenBack schema occurrence =
      if occurrence.hasValue then
        some (occurrence.argumentIndex, occurrence.value.getD "")
      else none := by
  rw [givenBack, hfits.found]
  simp only [Option.any_some, hflag, Bool.true_and]

theorem Fits.givenBack_of_not_flag {schema : CommandSchema} {occurrence : Occurrence}
    {option : OptionSchema} (hfits : Fits schema occurrence option)
    (hflag : option.isFlag = false) : givenBack schema occurrence = none := by
  rw [givenBack, hfits.found]
  simp only [Option.any_some, hflag, Bool.false_and, Bool.false_eq_true, if_false]

theorem returned_markSeen (state : State) (long : String) :
    (state.markSeen long).returned = state.returned := rfl

private theorem store_returned {state next : State} {option : OptionSchema}
    {value : Value} (hstore : store state option value = .ok next) :
    next.returned = state.returned := by
  unfold store at hstore
  split at hstore
  · rename_i items _
    cases hextend : extend
        (if state.seen.contains option.long then state.command.value option.slot
          else .list [])
        items with
    | error fault => simp only [hextend] at hstore; cases hstore
    | ok extended =>
        simp only [hextend] at hstore
        cases hstore
        exact returned_markSeen _ _
  · cases hstore
    exact returned_markSeen _ _

variable {parsers : Parsers} {invocation : Invocation} {schema : CommandSchema}

private theorem apply_ok {state next : State} {occurrence : Occurrence}
    (happly : apply parsers invocation schema state occurrence = .ok next) :
    (∃ option, Fits schema occurrence option) ∧
      next.returned = state.returned ++ (givenBack schema occurrence).toList := by
  unfold apply at happly
  cases hfound : findOption schema occurrence with
  | none => rw [hfound] at happly; cases happly
  | some option =>
      rw [hfound] at happly
      cases hflag : option.isFlag with
      | true =>
          simp only [hflag, if_true, applyFlag] at happly
          split at happly
          · cases happly
          · rename_i hvalue
            cases happly
            have hfits : Fits schema occurrence option :=
              ⟨hfound, fun _ hhas => by simpa [hhas] using hvalue, by simp [hflag]⟩
            refine ⟨⟨option, hfits⟩, ?_⟩
            rw [returned_markSeen, hfits.givenBack_of_flag hflag]
            cases occurrence.hasValue with
            | true => rfl
            | false => exact (List.append_nil _).symm
      | false =>
          simp only [hflag, Bool.false_eq_true, if_false, applyValue] at happly
          split at happly
          · cases happly
          · rename_i hvalue
            have hfits : Fits schema occurrence option :=
              ⟨hfound, by simp [hflag], fun _ => by simpa using hvalue⟩
            refine ⟨⟨option, hfits⟩, ?_⟩
            rw [hfits.givenBack_of_not_flag hflag, Option.toList_none,
              List.append_nil]
            split at happly
            · exact store_returned happly
            · cases happly
            · cases happly

private theorem applyAll_ok {state final : State} {occurrences : List Occurrence}
    (happly : applyAll parsers invocation schema state occurrences = .ok final) :
    (∀ occurrence ∈ occurrences, ∃ option, Fits schema occurrence option) ∧
      final.returned = state.returned ++
        occurrences.filterMap (givenBack schema) := by
  induction occurrences generalizing state with
  | nil =>
      cases happly
      exact ⟨by simp, (List.append_nil _).symm⟩
  | cons occurrence rest ih =>
      rw [applyAll] at happly
      cases hfirst : apply parsers invocation schema state occurrence with
      | error fault => rw [hfirst] at happly; cases happly
      | ok next =>
          rw [hfirst] at happly
          obtain ⟨hfits, hreturned⟩ := apply_ok hfirst
          obtain ⟨hrest, hfinal⟩ := ih happly
          refine ⟨?_, ?_⟩
          · intro other member
            rcases List.mem_cons.mp member with rfl | member
            · exact hfits
            · exact hrest other member
          · rw [hfinal, hreturned, List.append_assoc]
            cases hgiven : givenBack schema occurrence with
            | none => rw [List.filterMap_cons_none hgiven]; rfl
            | some word => rw [List.filterMap_cons_some hgiven]; rfl

private theorem bindTo_ok {bound : BoundCommand} {note : Journal.Note}
    (hbind : bindTo parsers invocation schema = .ok (bound, note)) :
    (∀ occurrence ∈ invocation.options, ∃ option, Fits schema occurrence option) ∧
      bound.arguments = insertReturned 0
        (invocation.options.filterMap (givenBack schema))
        invocation.arguments := by
  unfold bindTo at hbind
  cases hnew : schema.newInstance with
  | error fault => rw [hnew] at hbind; cases hbind
  | ok command =>
      simp only [hnew] at hbind
      cases happly : applyAll parsers invocation schema ⟨command, [], []⟩
        invocation.options with
      | error fault => rw [happly] at hbind; cases hbind
      | ok state =>
          simp only [happly] at hbind
          obtain ⟨hfits, hreturned⟩ := applyAll_ok happly
          cases hmissing : firstMissing schema state with
          | some option => simp only [hmissing] at hbind; cases hbind
          | none =>
              simp only [hmissing] at hbind
              cases hbind
              exact ⟨hfits, by rw [hreturned]; rfl⟩

/-- The reader who has come as far as a draft. -/
def Reader.of (draft : Draft) : Reader :=
  ⟨draft.name.isSome, draft.optionsEnded, .nothing⟩

theorem Reader.arguments_cons {reader next : Reader} {token : Token} {role : Role}
    (hread : reader.read schema token = (role, next)) (hrole : role ≠ .argument)
    (rest : List Token) :
    reader.arguments schema (token :: rest) = next.arguments schema rest := by
  rw [Reader.arguments, hread]
  cases role with
  | argument => exact absurd rfl hrole
  | name | option | value | path | mark => rfl

theorem Reader.arguments_cons_argument {reader next : Reader} {token : Token}
    (hread : reader.read schema token = (.argument, next)) (rest : List Token) :
    reader.arguments schema (token :: rest) = token :: next.arguments
      schema rest := by
  rw [Reader.arguments, hread]

private theorem kind_of_isOptionValue {token : Token}
    (hvalue : isOptionValue token = true) :
    token.kind = .word := by
  simp only [isOptionValue, Bool.and_eq_true, decide_eq_true_eq] at hvalue
  exact hvalue.1

private theorem shape_of_isOptionValue {token : Token}
    (hvalue : isOptionValue token = true) :
    Shape.of token.value = .argument := by
  simp only [isOptionValue, Bool.and_eq_true, decide_eq_true_eq] at hvalue
  have hhead := hvalue.2
  unfold Shape.of
  cases hchars : token.value.toList with
  | nil => rfl
  | cons c rest =>
      have hdash : c ≠ '-' := by
        intro heq
        subst heq
        rw [hchars] at hhead
        exact hhead rfl
      split
      · rename_i heq
        exact absurd (List.cons.inj heq).1 hdash
      · rename_i heq
        exact absurd (List.cons.inj heq).1 hdash
      · rfl

theorem Reader.read_argument (schema : CommandSchema) {draft : Draft} {token : Token}
    (hkind : token.kind = .word) (hnamed : draft.name.isSome = true)
    (hplain : draft.optionsEnded = true ∨ Shape.of token.value = .argument) :
    (Reader.of draft).read schema token = (.argument, Reader.of draft) := by
  have hcond : (draft.optionsEnded || decide (Shape.of token.value = .argument)) =
      true := by
    rcases hplain with hended | hshape
    · rw [hended, Bool.true_or]
    · rw [decide_eq_true hshape, Bool.or_true]
  simp only [Reader.read, Reader.of, Reader.readFresh, hkind, hnamed, hcond,
    Bool.not_true, Bool.false_eq_true, if_false, if_true]

/-- The reader after an option word: one that asks for a value waits for it. -/
def Reader.afterOption (draft : Draft) (asks : Bool) : Reader :=
  if asks then { Reader.of draft with awaited := .value } else Reader.of draft

theorem Reader.read_option (schema : CommandSchema) {draft : Draft} {token : Token}
    (hkind : token.kind = .word) (hnamed : draft.name.isSome = true)
    (hopen : draft.optionsEnded = false)
    (hshape : Shape.of token.value ≠ .argument) :
    (Reader.of draft).read schema token =
      (.option, Reader.afterOption draft
        (asksValue schema (Shape.of token.value))) := by
  have hcond : (draft.optionsEnded || decide (Shape.of token.value = .argument)) =
      false := by
    rw [hopen, decide_eq_false hshape, Bool.or_false]
  simp only [Reader.read, Reader.of, Reader.readFresh, hkind, hnamed, hcond,
    Bool.not_true, Bool.false_eq_true, if_false, Reader.afterOption]
  split <;> rfl

theorem Fits.asksValue_eq {shape : Shape} {occurrence : Occurrence}
    {option : OptionSchema} (hfits : Fits schema occurrence option)
    (hlone : shape.lone? = some (occurrence.name, occurrence.isLong)) :
    asksValue schema shape = !option.isFlag := by
  have hfound := hfits.found
  unfold findOption at hfound
  unfold asksValue
  simp only [hlone, hfound, Option.any_some]

theorem optionWord_leaves {shape : Shape} {next : Option Token} {index : Nat}
    {occurrences : List Occurrence}
    (hword : OptionWord shape next index occurrences false)
    (hfits : ∀ occurrence ∈ occurrences, ∃ option, Fits schema occurrence option) :
    occurrences.filterMap (givenBack schema) = [] ∧
      asksValue schema shape = false := by
  cases hword with
  | @plain name isLong hlone =>
      obtain ⟨option, hfit⟩ := hfits _ List.mem_cons_self
      have hflag : option.isFlag = true := by
        cases hcase : option.isFlag with
        | true => rfl
        | false => exact absurd (hfit.valued hcase) Bool.false_ne_true
      refine ⟨?_, ?_⟩
      · rw [List.filterMap_cons_none (hfit.givenBack_of_flag hflag)]
        rfl
      · rw [hfit.asksValue_eq hlone, hflag]
        rfl
  | apart hlone hspaced =>
      refine ⟨?_, ?_⟩
      · rw [List.filterMap_eq_nil_iff]
        intro occurrence member
        obtain ⟨option, hfit⟩ := hfits occurrence member
        cases hflag : option.isFlag with
        | false => exact hfit.givenBack_of_not_flag hflag
        | true =>
            rw [hfit.givenBack_of_flag hflag, if_neg]
            intro hhas
            have hspace := hfit.flag hflag hhas
            rw [hspaced occurrence member] at hspace
            cases hspace
      · unfold asksValue
        simp only [hlone]

/-- What the tokens have added to a draft, if the options that they name fit: the
words found, the words to give back, and that both together are the arguments of the
reader. -/
structure Accounted (schema : CommandSchema) (draft final : Draft)
    (tokens : List Token) (occurrences : List Occurrence)
    (placed : List ArgumentWord) : Prop where
  found : final.arguments = draft.arguments ++ ArgumentWord.finds placed
  givenBack : occurrences.filterMap (givenBack schema) =
    ArgumentWord.returns draft.arguments.length placed
  read : ((Reader.of draft).arguments schema tokens).map (·.value) =
    placed.map ArgumentWord.word

theorem Accounted.of_reader {draft next final : Draft} {tokens after : List Token}
    {occurrences : List Occurrence} {placed : List ArgumentWord}
    (haccount : Accounted schema next final after occurrences placed)
    (harguments : next.arguments = draft.arguments)
    (hreader : (Reader.of draft).arguments schema tokens =
      (Reader.of next).arguments schema after) :
    Accounted schema draft final tokens occurrences placed where
  found := by rw [haccount.found, harguments]
  givenBack := by rw [haccount.givenBack, harguments]
  read := by rw [hreader, haccount.read]

private theorem Accounted.argument {draft final : Draft} {token : Token}
    {rest : List Token} {occurrences : List Occurrence} {placed : List ArgumentWord}
    (haccount : Accounted schema (draft.addArgument token.value) final rest
      occurrences placed)
    (hread : (Reader.of draft).read schema token = (.argument, Reader.of draft)) :
    Accounted schema draft final (token :: rest) occurrences
      (.found token.value :: placed) where
  found := by
    rw [haccount.found, Draft.addArgument, List.append_assoc]
    rfl
  givenBack := by
    rw [haccount.givenBack, Draft.addArgument, List.length_append]
    rfl
  read := by
    rw [Reader.arguments_cons_argument hread, List.map_cons, List.map_cons]
    exact congrArg (token.value :: ·) haccount.read

private theorem Accounted.options {draft final : Draft} {token : Token}
    {rest : List Token} {added occurrences : List Occurrence}
    {placed : List ArgumentWord}
    (haccount : Accounted schema (draft.addOptions added) final rest occurrences
      placed) (hadded : added.filterMap (Binding.givenBack schema) = [])
    (hread : (Reader.of draft).read schema token = (.option, Reader.of draft)) :
    Accounted schema draft final (token :: rest) (added ++ occurrences) placed where
  found := haccount.found
  givenBack := by
    rw [List.filterMap_append, hadded, List.nil_append]
    exact haccount.givenBack
  read := by
    rw [Reader.arguments_cons hread nofun]
    exact haccount.read

/-- An option that took the next token: a flag gives it back as an argument, another
option keeps it as its value. -/
theorem Accounted.taking {draft final : Draft} {token value : Token}
    {rest : List Token} {name : String} {isLong : Bool} {option : OptionSchema}
    {occurrences : List Occurrence} {placed : List ArgumentWord}
    (haccount : Accounted schema
      (draft.addOptions [.withNext name isLong value draft.arguments.length])
        final rest
      occurrences placed)
    (hkind : token.kind = .word) (hnamed : draft.name.isSome = true)
    (hopen : draft.optionsEnded = false) (hshape : Shape.of token.value ≠ .argument)
    (hlone : (Shape.of token.value).lone? = some (name, isLong))
    (hvalue : isOptionValue value = true)
    (hfits : Fits schema (.withNext name isLong value draft.arguments.length)
      option) :
    ∃ placed', Accounted schema draft final (token :: value :: rest)
      (.withNext name isLong value draft.arguments.length :: occurrences)
        placed' := by
  have hread := Reader.read_option schema hkind hnamed hopen hshape
  rw [hfits.asksValue_eq hlone] at hread
  cases hflag : option.isFlag with
  | true =>
      rw [hflag] at hread
      have hargument := Reader.read_argument schema
        (kind_of_isOptionValue hvalue) hnamed
        (.inr (shape_of_isOptionValue hvalue))
      refine ⟨.returned value.value :: placed, ?_, ?_, ?_⟩
      · exact haccount.found
      · rw [List.filterMap_cons_some (hfits.givenBack_of_flag hflag),
          haccount.givenBack]
        rfl
      · rw [Reader.arguments_cons hread nofun]
        change ((Reader.of draft).arguments schema (value :: rest)).map _ = _
        rw [Reader.arguments_cons_argument hargument, List.map_cons, List.map_cons]
        exact congrArg (value.value :: ·) haccount.read
  | false =>
      rw [hflag] at hread
      have hkept : (Reader.afterOption draft true).read schema value =
          (.value, Reader.of draft) := by
        simp only [Reader.afterOption, if_true, Reader.read, hvalue]
        rfl
      refine ⟨placed, ?_, ?_, ?_⟩
      · exact haccount.found
      · rw [List.filterMap_cons_none (hfits.givenBack_of_not_flag hflag)]
        exact haccount.givenBack
      · rw [Reader.arguments_cons hread nofun]
        change ((Reader.afterOption draft true).arguments schema (value :: rest)).map
          _ = _
        rw [Reader.arguments_cons hkept nofun]
        exact haccount.read

theorem step_accounted (schema : CommandSchema) {draft next : Draft} {token : Token}
    {rest after : List Token} (hstep : Draft.Step draft token rest next after) :
    ∃ added, next.options = draft.options ++ added ∧
      ((∀ occurrence ∈ added, ∃ option, Fits schema occurrence option) →
        ∀ {final : Draft} {occurrences : List Occurrence}
            {placed : List ArgumentWord},
          Accounted schema next final after occurrences placed →
          ∃ placed', Accounted schema draft final
            (token :: rest) (added ++ occurrences)
            placed') := by
  cases hstep with
  | pipe hkind =>
      have hread : (Reader.of draft).read schema token =
          (.mark, Reader.of draft) := by
        simp only [Reader.read, Reader.of, Reader.readFresh, hkind]
      refine ⟨[], (List.append_nil _).symm, fun _ _ _ placed haccount => ?_⟩
      exact ⟨placed, haccount.of_reader rfl (Reader.arguments_cons hread nofun _)⟩
  | endOptions hkind =>
      have hread : (Reader.of draft).read schema token =
          (.mark, Reader.of draft.endOptions) := by
        simp only [Reader.read, Reader.of, Reader.readFresh, hkind]
        rfl
      refine ⟨[], (List.append_nil _).symm, fun _ _ _ placed haccount => ?_⟩
      exact ⟨placed, haccount.of_reader rfl (Reader.arguments_cons hread nofun _)⟩
  | word hkind hword =>
      cases hword with
      | name hname =>
          have hread : (Reader.of draft).read schema token =
              (.name, Reader.of { draft with name := some token.value }) := by
            simp only [Reader.read, Reader.of, Reader.readFresh, hkind, hname,
              Option.isSome_none, Bool.not_false, if_true]
            rfl
          refine ⟨[], (List.append_nil _).symm, fun _ _ _ placed haccount => ?_⟩
          exact ⟨placed, haccount.of_reader rfl
            (Reader.arguments_cons hread nofun _)⟩
      | argument hnamed hplain =>
          refine ⟨[], (List.append_nil _).symm, fun _ _ _ placed haccount => ?_⟩
          exact ⟨_, haccount.argument
            (Reader.read_argument schema hkind hnamed hplain)⟩
      | @option added _ hnamed hopen hshape hoption =>
          refine ⟨added, rfl, fun hfits _ _ placed haccount => ?_⟩
          obtain ⟨hadded, hasks⟩ := optionWord_leaves hoption hfits
          have hread := Reader.read_option schema hkind hnamed hopen hshape
          rw [hasks] at hread
          exact ⟨placed, haccount.options hadded hread⟩
  | wordTaking hkind hrest hword =>
      subst hrest
      cases hword with
      | option hnamed hopen hshape hoption =>
          cases hoption with
          | taking hlone hnext hvalue =>
              cases hnext
              refine ⟨_, rfl, fun hfits _ _ placed haccount => ?_⟩
              obtain ⟨option, hfit⟩ := hfits _ List.mem_cons_self
              exact haccount.taking hkind hnamed hopen hshape hlone hvalue hfit
  | @redirection path _ hkind hrest hpath =>
      subst hrest
      have hread : (Reader.of draft).read schema token =
          (.mark, { Reader.of draft with awaited := .path }) := by
        rcases hkind with hkind | hkind | hkind <;>
          simp only [Reader.read, Reader.of, Reader.readFresh, hkind]
      have hdraft : (draft.redirect token.kind path.value).arguments =
          draft.arguments ∧
            (draft.redirect token.kind path.value).options = draft.options ∧
            Reader.of (draft.redirect token.kind path.value) = Reader.of draft := by
        rcases hkind with hkind | hkind | hkind <;> rw [hkind] <;>
          exact ⟨rfl, rfl, rfl⟩
      refine ⟨[], ?_, fun _ _ _ placed haccount => ?_⟩
      · rw [hdraft.2.1, List.append_nil]
      · refine ⟨placed, haccount.of_reader hdraft.1 ?_⟩
        rw [Reader.arguments_cons hread nofun, hdraft.2.2]
        rfl

/-- Along every run, what reading without the options has misplaced is accounted
for. -/
theorem run_accounted (schema : CommandSchema) {draft final : Draft}
    {tokens : List Token} (hrun : Draft.Run draft tokens final) :
    ∃ occurrences, final.options = draft.options ++ occurrences ∧
      ((∀ occurrence ∈ occurrences, ∃ option, Fits schema occurrence option) →
        ∃ placed, Accounted schema draft final tokens occurrences placed) := by
  induction hrun with
  | done draft =>
      exact ⟨[], (List.append_nil _).symm, fun _ =>
        ⟨[], (List.append_nil _).symm, rfl, rfl⟩⟩
  | step hstep hrun ih =>
      obtain ⟨occurrences, hoptions, haccounts⟩ := ih
      obtain ⟨added, hadded, hstepped⟩ := step_accounted schema hstep
      refine ⟨added ++ occurrences, ?_, fun hfits => ?_⟩
      · rw [hoptions, hadded, List.append_assoc]
      · obtain ⟨placed, haccount⟩ := haccounts fun occurrence member =>
          hfits occurrence (List.mem_append_right added member)
        exact hstepped (fun occurrence member =>
          hfits occurrence (List.mem_append_left occurrences member)) haccount

/-- A bound command has as arguments exactly the words that a reader who knows its
options takes for arguments, in their order on the line. -/
theorem bindTo_arguments {tokens : List Token} {bound : BoundCommand}
    {note : Journal.Note} (hparse : parseTokens tokens = .ok (some [invocation]))
    (hbind : bindTo parsers invocation schema = .ok (bound, note)) :
    bound.arguments = (Reader.start.arguments schema tokens).map (·.value) ∧
      (Reader.start.arguments schema tokens).Sublist tokens := by
  refine ⟨?_, Reader.arguments_sublist schema Reader.start tokens⟩
  obtain ⟨final, hrun, hfinish⟩ :=
    parseInvocation_ok (parseInvocation_of_parseTokens hparse)
  obtain ⟨name, -, rfl⟩ := Draft.finish_ok hfinish
  obtain ⟨hfits, harguments⟩ := bindTo_ok hbind
  obtain ⟨occurrences, hoptions, haccounts⟩ := run_accounted schema hrun
  have hall : final.options = occurrences := hoptions
  rw [hall] at hfits harguments
  obtain ⟨placed, haccount⟩ := haccounts hfits
  have hfound : final.arguments = ArgumentWord.finds placed := haccount.found
  calc
    bound.arguments = insertReturned 0 (ArgumentWord.returns 0 placed)
      (ArgumentWord.finds placed) := by
      rw [harguments, haccount.givenBack, hfound]
      rfl
    _ = placed.map ArgumentWord.word :=
      ArgumentWord.insertReturned_returns placed [] 0 0 rfl
    _ = (Reader.start.arguments schema tokens).map (·.value) := haccount.read.symm

/-! Flags before words, a value, a redirection, a cluster and a dash after the end of
the options. -/

def sampleFlag (long : String) (short : Char) : OptionSchema :=
  ⟨long, some short, false, "", .bool, false, none, none, long, .bool false⟩

def sampleSchema : CommandSchema :=
  { name := "tool"
    description := ""
    options := [sampleFlag "verbose" 'v', sampleFlag "quiet" 'q',
      sampleFlag "exact" 'x', ⟨"name", some 'n', false, "", .string, false, none,
        none, "name", .null⟩]
    typeName := "Tool"
    factory := .itself
    program := .actions []
    hook := .none }

def sampleWord (value : String) : Token := ⟨.word, value, ⟨0, 0⟩, false⟩

def sampleTokens : List Token :=
  [sampleWord "tool", sampleWord "-v", sampleWord "a", sampleWord "--name",
    sampleWord "bob", sampleWord "--quiet", sampleWord "b",
    .operator .redirectOut ">" 0, sampleWord "out", sampleWord "-vx", sampleWord "c",
    sampleWord "-v", sampleWord "d", ⟨.endOfOptions, "--", ⟨0, 0⟩, false⟩,
    sampleWord "-q"]

theorem bindTo_arguments_sample :
    ∃ invocation bound note,
      parseTokens sampleTokens = .ok (some [invocation]) ∧
      bindTo [] invocation sampleSchema = .ok (bound, note) ∧
      bound.arguments = (Reader.start.arguments sampleSchema sampleTokens).map
        (·.value) ∧
      bound.arguments = ["a", "b", "c", "d", "-q"] := by
  have hruns : ∃ invocation, parseTokens sampleTokens = .ok (some [invocation]) ∧
      ∃ bound note, bindTo [] invocation sampleSchema = .ok (bound, note) ∧
        bound.arguments = ["a", "b", "c", "d", "-q"] :=
    ⟨_, rfl, _, _, rfl, rfl⟩
  obtain ⟨invocation, hparse, bound, note, hbind, harguments⟩ := hruns
  exact ⟨invocation, bound, note, hparse, hbind, (bindTo_arguments hparse hbind).1,
    harguments⟩

end PipeShell.Binding
