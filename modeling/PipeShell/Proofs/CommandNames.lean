import PipeShell.Proofs.Flags
import PipeShell.Proofs.RegistryLog
import PipeShell.Proofs.VerbatimWords

namespace PipeShell

namespace Token

/-- The token that takes up all of a text and keeps it as it is. -/
def whole (text : String) : Token :=
  ⟨if text = "--" then .endOfOptions else .word, text, ⟨0, text.length⟩, false⟩

variable {text : String}

private theorem kind_whole (text : String) :
    (whole text).kind = .word ∨ (whole text).kind = .endOfOptions := by
  unfold whole
  dsimp only
  split
  · exact .inr rfl
  · exact .inl rfl

private theorem tokenize_eq_whole_iff (hsome : text.toList ≠ []) :
    tokenize text = .ok [whole text] ↔
      (∀ c ∈ text.toList, c ∉ marks) ∧ '\t' ∉ text.toList := by
  constructor
  · intro hread
    obtain ⟨hfree, hplain⟩ := tokenizeChars_ok hread
    -- A mark is lost or makes an operator, so a token as long as the text leaves no
    -- room for one.
    have hkinds : ∀ token ∈ [whole text], token.kind = .word ∨
        token.kind = .endOfOptions :=
      List.forall_mem_singleton.mpr (kind_whole text)
    have hlength : valueLength [whole text] = keptOf none + text.toList.length := by
      simp [whole, keptOf, String.length_toList]
    exact ⟨unmarked_of_plain hplain hkinds hlength, hfree⟩
  · rintro ⟨hunmarked, hfree⟩
    have hdashes : text.toList = ['-', '-'] ↔ text = "--" :=
      @String.toList_inj text "--"
    rw [tokenize, tokenizeChars_of_tabFree hfree,
      plain_none_unmarked hsome hunmarked, String.ofList_toList,
      String.length_toList]
    simp only [whole, hdashes]

end Token

namespace CommandDeclaration

variable {declaration : CommandDeclaration} {name : String}

private theorem mem_nameBreakers {c : Char} :
    c ∈ nameBreakers ↔ c ∈ Token.marks ∨ c = '\t' := by
  simp only [nameBreakers, Token.marks, List.mem_cons, List.not_mem_nil, or_false]
  tauto

private theorem breakerFree_iff :
    name.toList.any nameBreakers.contains = false ↔
      (∀ c ∈ name.toList, c ∉ Token.marks) ∧ '\t' ∉ name.toList := by
  simp only [List.any_eq_false, List.contains_iff_mem, mem_nameBreakers, not_or]
  constructor
  · intro hfree
    exact ⟨fun c hc => (hfree c hc).1, fun htab => (hfree '\t' htab).2 rfl⟩
  · rintro ⟨hunmarked, htab⟩ c hc
    exact ⟨hunmarked c hc, fun heq => htab (heq ▸ hc)⟩

theorem validName_ok_iff :
    declaration.validName = .ok name ↔
      declaration.name = .text name ∧ Text.allBlank name = false ∧
        Token.tokenize name = .ok [Token.whole name] := by
  have hsome (hblank : Text.allBlank name = false) : name.toList ≠ [] := by
    intro hnil
    rw [Text.allBlank, hnil] at hblank
    cases hblank
  constructor
  · intro hvalid
    unfold validName at hvalid
    split at hvalid
    · next found hname =>
        split at hvalid
        · cases hvalid
        · next hblank =>
            split at hvalid
            · cases hvalid
            · next hbreakers =>
                cases hvalid
                have hblank := Bool.eq_false_iff.mpr hblank
                have hfree := breakerFree_iff.mp (Bool.eq_false_iff.mpr hbreakers)
                exact ⟨hname, hblank, (Token.tokenize_eq_whole_iff
                  (hsome hblank)).mpr hfree⟩
    · cases hvalid
  · rintro ⟨hname, hblank, hread⟩
    have hfree := breakerFree_iff.mpr
      ((Token.tokenize_eq_whole_iff (hsome hblank)).mp hread)
    simp [validName, hname, hblank, hfree]

end CommandDeclaration

/-- A command without arguments, options or redirections. -/
def Invocation.bare (name : String) : Invocation := ⟨name, [], [], ⟨none, none⟩⟩

namespace Pipeline

theorem parseTokens_singleton {token : Token} (hword : token.kind = .word) :
    parseTokens [token] = .ok (some [.bare token.value]) := by
  have hcut : segments [token] = ([], [token]) :=
    segments_of_no_pipe (by simp [hword])
  have hscan : Draft.empty.scan [token] =
      Draft.scan ⟨some token.value, [], [], false, ⟨none, none⟩⟩ [] :=
    Draft.scan_word hword rfl
  simp only [parseTokens, hcut, parseSegments, parseInvocation, hscan, Draft.scan]
  rfl

private theorem parse_of_whole {name : String}
    (hread : Token.tokenize name = .ok [Token.whole name]) :
    parse name = if name = "--" then .error .nameMissing
      else .ok (some [.bare name]) := by
  rw [parse, hread]
  by_cases hdashes : name = "--"
  · subst hdashes
    rfl
  · have hword : (Token.whole name).kind = .word := if_neg hdashes
    rw [if_neg hdashes]
    exact parseTokens_singleton hword

end Pipeline

private theorem Binding.schema_of_bindTo {parsers : Parsers}
    {invocation : Invocation} {schema : CommandSchema} {bound : BoundCommand}
    {note : Journal.Note} (hbind : bindTo parsers invocation schema =
      .ok (bound, note)) : bound.schema = schema := by
  unfold bindTo at hbind
  split at hbind
  · cases hbind
  · split at hbind
    · cases hbind
    · split at hbind
      · cases hbind
      · cases hbind
        rfl

namespace Registry

variable {registry : Registry} {schema : CommandSchema}

/-- Typed on a line of its own, the name of a command leads back to what was
registered. -/
structure TypesBack (registry : Registry) (schema : CommandSchema) : Prop where
  tokens : Token.tokenize schema.name = .ok [Token.whole schema.name]
  parses : Pipeline.parse schema.name =
    if schema.name = "--" then .error .nameMissing
      else .ok (some [.bare schema.name])
  finds : registry.lookup schema.name = some schema
  binds : ∀ parsers, registry.bindCommand parsers (.bare schema.name) =
    Binding.bindTo parsers (.bare schema.name) schema
  keeps : ∀ parsers bound, (registry.bind parsers [.bare schema.name]).2 =
    .ok bound →
    bound.map (·.schema) = [schema]

theorem bindCommand_of_lookup (hlookup : registry.lookup schema.name = some schema)
    (parsers : Parsers) :
    registry.bindCommand parsers (.bare schema.name) =
      Binding.bindTo parsers (.bare schema.name) schema := by
  have hname : registry.lookup (Invocation.bare schema.name).name = some schema :=
    hlookup
  rw [bindCommand, hname]

private theorem schemas_of_bind (hlookup : registry.lookup schema.name = some schema)
    {parsers : Parsers} {bound : BoundPipeline}
    (hbind : (registry.bind parsers [.bare schema.name]).2 = .ok bound) :
    bound.map (·.schema) = [schema] := by
  rw [bind, bindCommand_of_lookup hlookup] at hbind
  cases hfound : Binding.bindTo parsers (.bare schema.name) schema with
  | error fault =>
      rw [hfound] at hbind
      cases hbind
  | ok found =>
      rw [hfound] at hbind
      cases hbind
      exact congrArg (fun kept => [kept]) (Binding.schema_of_bindTo hfound)

private theorem typesBack_of_toSchema {declaration : CommandDeclaration}
    (hschema : declaration.toSchema = .ok schema)
    (hlookup : registry.lookup schema.name = some schema) :
    registry.TypesBack schema := by
  have hvalid := (CommandDeclaration.toSchema_ok hschema).1
  have hread := (CommandDeclaration.validName_ok_iff.mp hvalid).2.2
  exact ⟨hread, Pipeline.parse_of_whole hread, hlookup,
    bindCommand_of_lookup hlookup, fun _ _ => schemas_of_bind hlookup⟩

private theorem exists_current_of_mem_names {changes : List Change} {name : String}
    (hname : name ∈ (run changes).names) :
    ∃ schema, schema.name = name ∧ Current (logOf changes) schema.key schema ∧
      (run changes).lookup schema.name = some schema := by
  have hholds := holds_run changes
  obtain ⟨entry, hentry, rfl⟩ := List.mem_map.mp hname
  have hlookup : Table.get? entry.2.key (run changes).commands = some entry.2 := by
    rw [← hholds.keyed entry hentry]
    exact (Table.mem_iff_get? hholds.distinct).mp hentry
  exact ⟨entry.2, rfl, (hholds.get?_iff _ _).mp hlookup, hlookup⟩

/-- A name that is registered can be typed: as soon as its registration has
succeeded, and after any run of calls for as long as it is among the names. What it
leads to is the latest registration. -/
theorem registered_names_typeBack :
    (∀ (registry next : Registry) (registrant : Registrant) (schema : CommandSchema)
        (notes : List Journal.Note),
      registry.register registrant = .ok (schema, next, notes) →
        (∃ declaration, registrant = .command declaration ∧
            declaration.name = .text schema.name) ∧
          next.TypesBack schema) ∧
      ∀ (changes : List Change), ∀ name ∈ (run changes).names,
        ∃ schema, schema.name = name ∧ Current (logOf changes) schema.key schema ∧
          (run changes).TypesBack schema := by
  constructor
  · intro registry next registrant schema notes hregister
    obtain ⟨rfl, -⟩ := toSchema_of_register hregister
    have hmember : schema ∈ accepted [registrant] := by
      rw [accepted_of_register hregister]
      exact List.mem_singleton_self schema
    obtain ⟨found, hfound, hschema⟩ := mem_accepted hmember
    obtain rfl := List.mem_singleton.mp hfound
    obtain ⟨declaration, rfl, hdeclared⟩ := Registrant.exists_declaration hschema
    have hvalid := (CommandDeclaration.toSchema_ok hdeclared).1
    exact ⟨⟨declaration, rfl, (CommandDeclaration.validName_ok_iff.mp hvalid).1⟩,
      typesBack_of_toSchema hdeclared (lookup_add_self registry schema)⟩
  · intro changes name hname
    obtain ⟨schema, hsame, hcurrent, hlookup⟩ := exists_current_of_mem_names hname
    obtain ⟨declaration, hdeclared⟩ := declared_of_lookup hlookup
    exact ⟨schema, hsame, hcurrent, typesBack_of_toSchema hdeclared hlookup⟩

def dashed (name : String) :
    CommandDeclaration := { Catalog.pwd with name := .text name }

/-- The same name in another case takes the place of the first. -/
theorem registered_names_typeBack_dashed :
    let first := Change.register (.command (dashed "--where"))
    let second := Change.register (.command (dashed "--Where"))
    (∃ schema next notes,
      (run [first]).register (.command (dashed "--Where")) =
        .ok (schema, next, notes) ∧
        schema.name = "--Where" ∧ next.TypesBack schema) ∧
      "--Where" ∈ (run [first, second]).names ∧
        ∃ schema, schema.name = "--Where" ∧
          Current (logOf [first, second]) schema.key schema ∧
          (run [first, second]).TypesBack schema := by
  intro first second
  obtain ⟨hregistered, hrun⟩ := registered_names_typeBack
  obtain ⟨schema, next, notes, hregister, hspelled⟩ : ∃ schema next notes,
      (run [first]).register (.command (dashed "--Where")) =
        .ok (schema, next, notes) ∧
        schema.name = "--Where" := ⟨_, _, _, rfl, rfl⟩
  have hnames : (run [first, second]).names = ["--Where"] := rfl
  have hname : "--Where" ∈ (run [first, second]).names :=
    hnames ▸ List.mem_singleton_self _
  exact ⟨⟨schema, next, notes, hregister, hspelled,
    (hregistered _ _ _ _ _ hregister).2⟩, hname, hrun _ _ hname⟩

end Registry

end PipeShell
