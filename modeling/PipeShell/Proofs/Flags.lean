import PipeShell.Proofs.OptionNames
import PipeShell.Proofs.OptionWords

namespace PipeShell

open Token (quoteWord Piece)

private theorem OptionDeclaration.shortChar_of_toSchema
    {declaration : OptionDeclaration} {option : OptionSchema}
    (hschema : declaration.toSchema = .ok option) :
    declaration.shortChar = .ok option.short := by
  unfold OptionDeclaration.toSchema at hschema
  split at hschema
  · cases hschema
  · split at hschema
    · cases hschema
    · next hshort =>
        split at hschema
        · cases hschema
        · split at hschema
          · cases hschema
          · split at hschema
            · cases hschema
            · split at hschema
              · cases hschema
              · cases hschema
                exact hshort

private theorem OptionDeclaration.ne_of_shortChar {declaration : OptionDeclaration}
    {c : Char} (hshort : declaration.shortChar = .ok (some c)) :
    c ≠ '-' ∧ c ≠ '=' := by
  unfold OptionDeclaration.shortChar at hshort
  split at hshort
  · cases hshort
  · split at hshort
    · split at hshort
      · cases hshort
      · next hother =>
          cases hshort
          simp only [Bool.or_eq_true, decide_eq_true_eq, not_or] at hother
          exact hother.1
    · cases hshort

private theorem CommandDeclaration.tabFree_of_validName
    {declaration : CommandDeclaration} {name : String}
    (hname : declaration.validName = .ok name) : Text.TabFree name := by
  unfold CommandDeclaration.validName at hname
  split at hname
  · split at hname
    · cases hname
    · split at hname
      · cases hname
      · next hbreakers =>
          cases hname
          intro htab
          exact hbreakers (List.any_eq_true.mpr ⟨'\t', htab, by decide⟩)
  · cases hname

theorem CommandDeclaration.short_ne {declaration : CommandDeclaration}
    {schema : CommandSchema} (hschema : declaration.toSchema = .ok schema)
    {option : OptionSchema} (hoption : option ∈ schema.options) {c : Char}
    (hshort : option.short = some c) : c ≠ '-' ∧ c ≠ '=' := by
  obtain ⟨-, hoptions, -⟩ := CommandDeclaration.toSchema_ok hschema
  obtain ⟨declared, -, hvalid⟩ := exists_of_mapM_ok hoptions option hoption
  cases declared with
  | other value => cases hvalid
  | option declared =>
      have hchar := OptionDeclaration.shortChar_of_toSchema hvalid
      exact OptionDeclaration.ne_of_shortChar (hshort ▸ hchar)

namespace Pipeline

/-- The name of a command and a dash with a character, both in double quotes. -/
def flagLine (name : String) (c : Char) : String :=
  quoteWord name ++ " " ++ quoteWord ("-" ++ shortName c)

variable {name : String} {c : Char}

private theorem flagLine_eq_printAll (name : String) (c : Char) :
    flagLine name c = Piece.printAll [.word name, .word ("-" ++ shortName c)] := by
  rw [Piece.printAll, List.map_cons, List.map_singleton, Text.join,
    String.intercalate_cons_of_ne_nil (List.cons_ne_nil _ _),
    String.intercalate_singleton]
  rfl

theorem parse_flagLine (hname : Text.TabFree name) (htab : c ≠ '\t') :
    ∃ first second : Token, first.kind = .word ∧ first.value = name ∧
      second.kind = .word ∧
      second.value = "-" ++ shortName c ∧
        parse (flagLine name c) = parseTokens [first, second] := by
  have hword : Text.TabFree ("-" ++ shortName c) := by
    simp [Text.TabFree, shortName, htab.symm]
  have hfree : ∀ piece ∈ [Piece.word name, Piece.word ("-" ++ shortName c)],
      piece.TabFree := by
    simp [Piece.TabFree, hname, hword]
  refine ⟨Piece.token 0 (.word name),
    Piece.token (0 + (Piece.word name).text.length + 1) (.word ("-" ++ shortName c)),
    rfl, rfl, rfl, rfl, ?_⟩
  rw [parse, flagLine_eq_printAll, Token.tokenize_printAll hfree]
  rfl

private theorem parse_flagLine_option (hname : Text.TabFree name) (htab : c ≠ '\t')
    (hdash : c ≠ '-') (hequals : c ≠ '=') (hpoint : c ≠ '.')
    (hdigit : Text.isDigit c = false) : parse (flagLine name c) =
      .ok (some [⟨name, [], [.plain (shortName c) false 0], ⟨none, none⟩⟩]) := by
  obtain ⟨first, second, hfirst, rfl, hsecond, hvalue, hparse⟩ :=
    parse_flagLine hname htab
  have hspelled : (Occurrence.plain (shortName c) false 0).Spelled :=
    spelled_short rfl rfl hequals rfl
  have hdescribe : second.value =
      (Occurrence.plain (shortName c) false 0).describe := hvalue
  have hshape : Shape.of second.value = _ :=
    hdescribe ▸ shape_short rfl rfl hdash fun _ => ⟨hpoint, hdigit⟩
  rw [hparse, parseTokens_short hfirst hsecond hshape,
    shortOptions_describe hspelled rfl rfl hequals second rfl]
  rfl

private theorem parse_flagLine_argument (hname : Text.TabFree name)
    (hnumeral : c = '.' ∨ Text.isDigit c = true) :
    parse (flagLine name c) =
      .ok (some [⟨name, ["-" ++ shortName c], [], ⟨none, none⟩⟩]) := by
  have htab : c ≠ '\t' := by
    rintro rfl
    revert hnumeral
    decide
  obtain ⟨first, second, hfirst, rfl, hsecond, hvalue, hparse⟩ :=
    parse_flagLine hname htab
  rw [hparse, parseTokens_argument hfirst hsecond
    (hvalue ▸ shape_of_numeral hnumeral), hvalue]

private theorem parse_flagLine_tab (name : String) :
    ∃ position, parse (flagLine name '\t') = .error (.tab position) := by
  have hmem : '\t' ∈ (flagLine name '\t').toList := by
    rw [flagLine, String.toList_append]
    exact List.mem_append_right _ (by decide)
  obtain ⟨position, hposition⟩ := Token.findIdx?_of_tab hmem
  refine ⟨position, ?_⟩
  rw [parse, Token.tokenize, Token.tokenizeChars, hposition]

end Pipeline

namespace Binding

variable {parsers : Parsers} {invocation : Invocation} {schema : CommandSchema}

/-- The parts of a bound command that the options and the arguments of a line make
up. -/
def shown (bound : BoundCommand × Journal.Note) : Instance × List String :=
  (bound.1.command, bound.1.arguments)

theorem bindTo_of_applyAll (final : Instance → State)
    (hoptional : ∀ option ∈ schema.options, option.required = false)
    (happly : ∀ fresh, applyAll parsers invocation schema ⟨fresh, [], []⟩
      invocation.options =
      .ok (final fresh)) :
    (bindTo parsers invocation schema).map shown = schema.newInstance.map
      fun fresh =>
      ((final fresh).command, insertReturned 0 (final fresh).returned
        invocation.arguments) := by
  unfold bindTo
  cases schema.newInstance with
  | error fault => rfl
  | ok fresh =>
      have hnone : firstMissing schema (final fresh) = none :=
        List.find?_eq_none.mpr fun option hoption => by simp [hoptional
          option hoption]
      simp only [happly, hnone]
      rfl

private theorem apply_plain_flag {option : OptionSchema} {name : String}
    {isLong : Bool} {index : Nat} (state : State)
    (hfound : findOption schema (.plain name isLong index) = some option)
    (hflag : option.isFlag = true) :
    apply parsers invocation schema state (.plain name isLong index) =
      .ok (State.markSeen { state with
        command := state.command.set option.slot (.bool true) } option.long) := by
  rw [apply, hfound]
  simp only [hflag, if_true]
  rfl

end Binding

namespace Registry

theorem lookup_add_self (registry : Registry) (schema : CommandSchema) :
    (registry.add schema).1.lookup schema.name = some schema :=
  Table.get?_set_self (Text.lower schema.name) schema registry.commands

/-- The line is a single invocation, and binding it has the result. -/
def LineBinds (registry : Registry) (parsers : Parsers) (line : String)
    (result : Except Fault (Instance × List String)) : Prop :=
  ∃ invocation, Pipeline.parse line = .ok (some [invocation]) ∧
    (registry.bindCommand parsers invocation).map Binding.shown = result

open Pipeline (flagLine shortName)

/-- A flag can be set by its short name, unless that is a digit, a point or a tab. A
new instance may not come about; then binding fails as that does. -/
theorem lineBinds_flagLine {registry registered : Registry} {registrant : Registrant}
    {schema : CommandSchema} {notes : List Journal.Note}
    (hregister : registry.register registrant = .ok (schema, registered, notes))
    (hoptional : ∀ option ∈ schema.options, option.required = false)
    {option : OptionSchema} (hoption : option ∈ schema.options)
    (hflag : option.isFlag = true) {c : Char} (hshort : option.short = some c)
    (parsers : Parsers) : (c ≠ '\t' → c ≠ '.' → Text.isDigit c = false →
      registered.LineBinds parsers (flagLine schema.name c)
        (schema.newInstance.map fun fresh =>
          (fresh.set option.slot (.bool true), []))) ∧
    (c = '.' ∨ Text.isDigit c = true →
      registered.LineBinds parsers (flagLine schema.name c)
        (schema.newInstance.map fun fresh => (fresh, ["-" ++ shortName c]))) ∧
    (c = '\t' → ∃ position,
      Pipeline.parse (flagLine schema.name c) = .error (.tab position)) := by
  obtain ⟨rfl, declaration, hschema⟩ := Registry.toSchema_of_register hregister
  have hname := CommandDeclaration.tabFree_of_validName
    (CommandDeclaration.toSchema_ok hschema).1
  obtain ⟨hdash, hequals⟩ := CommandDeclaration.short_ne hschema hoption hshort
  have hlookup := lookup_add_self registry schema
  refine ⟨fun htab hpoint hdigit => ?_, fun hnumeral => ?_, ?_⟩
  · refine ⟨_, Pipeline.parse_flagLine_option hname htab hdash hequals hpoint
      hdigit, ?_⟩
    have hmeans : Binding.Means schema (.plain (shortName c) false 0) option :=
      .short rfl hoption (by rw [CommandSchema.shortName, hshort]; rfl)
    have hfound := Binding.findOption_of_means
      (CommandDeclaration.namesApart hschema) hmeans
    simp only [bindCommand, hlookup]
    refine Binding.bindTo_of_applyAll
      (fun fresh => ⟨fresh.set option.slot (.bool true), [option.long], []⟩)
        hoptional fun fresh => ?_
    rw [Binding.applyAll, Binding.apply_plain_flag _ hfound hflag]
    rfl
  · refine ⟨_, Pipeline.parse_flagLine_argument hname hnumeral, ?_⟩
    simp only [bindCommand, hlookup]
    exact Binding.bindTo_of_applyAll (fun fresh => ⟨fresh, [], []⟩) hoptional
      fun fresh => rfl
  · rintro rfl
    exact Pipeline.parse_flagLine_tab schema.name

/-- One flag under a letter, and one under a digit. -/
def listing : CommandDeclaration :=
  { typeName := "List"
    name := .text "ls"
    description := ""
    options :=
      [ .option { long := "all", short := some "a", kind := some .bool },
        .option { long := "one", short := some "1", kind := some .bool } ]
    isAbstract := false
    factory := .itself
    program := .actions []
    hook := .none }

def listingSchema : CommandSchema :=
  { name := "ls"
    description := ""
    options :=
      [ { long := "all"
          short := some 'a'
          kind := .bool
          slot := "all"
          default := .bool false },
        { long := "one"
          short := some '1'
          kind := .bool
          slot := "one"
          default := .bool false } ]
    typeName := "List"
    factory := .itself
    program := .actions []
    hook := .none }

theorem lineBinds_flagLine_listing :
    ∃ registered notes,
      Registry.empty.register (.command listing) =
        .ok (listingSchema, registered, notes) ∧
      registered.LineBinds [] "\"ls\" \"-a\""
        (.ok (⟨"List", "ls", [("all", .bool true), ("one", .bool false)],
          .actions [], .none⟩, [])) := by
  obtain ⟨registered, notes, hregister⟩ : ∃ registered notes,
      Registry.empty.register (.command listing) =
        .ok (listingSchema, registered, notes) :=
    ⟨_, _, rfl⟩
  have hoptional : ∀ option ∈ listingSchema.options, option.required = false := by
    simp [listingSchema]
  have hbinds := (lineBinds_flagLine hregister hoptional List.mem_cons_self
    rfl rfl []).1
    (by decide) (by decide) (by decide)
  exact ⟨registered, notes, hregister, hbinds⟩

/-- The flag under a digit is accepted, and its word becomes an argument. -/
theorem digit_flag_is_argument :
    ∃ registered notes,
      Registry.empty.register (.command listing) =
        .ok (listingSchema, registered, notes) ∧
      (∀ option ∈ listingSchema.options, option.required = false) ∧
      (∃ option ∈ listingSchema.options, option.isFlag = true ∧
        option.short = some '1') ∧
      flagLine "ls" '1' = "\"ls\" \"-1\"" ∧
      registered.LineBinds [] (flagLine "ls" '1')
        (.ok (⟨"List", "ls", [("all", .bool false), ("one", .bool false)],
          .actions [], .none⟩, ["-1"])) := by
  exact ⟨_, _, rfl, by simp [listingSchema],
    ⟨_, List.mem_cons_of_mem _ List.mem_cons_self, rfl, rfl⟩, rfl, _, rfl, rfl⟩

end Registry

end PipeShell
