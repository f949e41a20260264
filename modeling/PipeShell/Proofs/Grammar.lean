import Mathlib.Data.List.Forall2
import PipeShell.Proofs.PrintedPipelines
import PipeShell.Proofs.TextPieces

namespace PipeShell.Pipeline

def isRedirection (token : Token) : Bool :=
  token.kind = .redirectIn || isOutputRedirection token

/-- There is a token with a property of what is before it, of itself and of what is
after it. -/
def Somewhere (P : List Token → Token → List Token → Prop) (tokens : List Token) :
    Prop :=
  ∃ before token after, tokens = before ++ token :: after ∧ P before token after

/-- A word that comes next is the path of a redirection. -/
def AfterRedirection (before : List Token) : Prop :=
  ∃ token ∈ before.getLast?, isRedirection token = true

/-- A word that is not the path of a redirection. -/
def FreeWord (before : List Token) (token : Token) : Prop :=
  token.kind = .word ∧ ¬AfterRedirection before

def Named : List Token → Prop :=
  Somewhere fun before token _ => FreeWord before token

def NamedBy (name : String) : List Token → Prop :=
  Somewhere fun before token _ => FreeWord before token ∧ ¬Named before ∧
    token.value = name

def Dangling (token : Token) (after : List Token) : Prop :=
  isRedirection token = true ∧ ∀ next ∈ after.head?, next.kind ≠ .word

def lacksName (value : String) : Bool :=
  Text.startsWith value "--=" || Text.startsWith value "-="

def BadOption (before : List Token) (token : Token) : Prop :=
  FreeWord before token ∧ Named before ∧
    (∀ earlier ∈ before, earlier.kind ≠ .endOfOptions) ∧
    lacksName token.value = true

/-- The last redirection of a direction with its path, if there is one. -/
def LastRedirection (direction : Token → Bool) (part : List Token) :
    Option (Token × Token) → Prop
  | none => ∀ token ∈ part, direction token = false
  | some (token, path) =>
      ∃ before after, part = before ++ token :: path :: after ∧
        direction token = true ∧
        ∀ later ∈ path :: after, direction later = false

def isInputRedirection (token : Token) : Bool := token.kind = .redirectIn

/-- The redirections of a part are the last ones of each direction. -/
structure Redirects (part : List Token) (redirections : Redirections) : Prop where
  stdin : ∃ found, LastRedirection isInputRedirection part found ∧
    redirections.stdin = found.map fun (_, path) => path.value
  stdout : ∃ found, LastRedirection isOutputRedirection part found ∧
    redirections.stdout = found.map fun (token, path) =>
      ⟨path.value, token.kind = .redirectAppend⟩

structure Reads (part : List Token) (invocation : Invocation) : Prop where
  name : NamedBy invocation.name part
  redirections : Redirects part invocation.redirections

inductive Malformed (parts : List (List Token)) : Prop
  | empty (hpart : [] ∈ parts)
  | dangling {part : List Token} (hpart : part ∈ parts)
      (hplace : Somewhere (fun _ token after => Dangling token after) part)
  | nameless {part : List Token} (hpart : part ∈ parts) (hname : ¬Named part)
  | redirected {part : List Token} {token : Token} (hpart : part ∈ parts.dropLast)
      (htoken : token ∈ part) (hout : isOutputRedirection token = true)
  | badOption {part : List Token} (hpart : part ∈ parts)
      (hplace : Somewhere (fun before token _ => BadOption before token) part)

def parts (tokens : List Token) : List (List Token) :=
  tokens.splitOnP fun token => token.kind = .pipe

theorem not_somewhere_nil {P : List Token → Token → List Token → Prop} :
    ¬Somewhere P [] := by
  rintro ⟨before, token, after, hsplit, -⟩
  simp at hsplit

theorem somewhere_cons {P : List Token → Token → List Token → Prop} {token : Token}
    {rest : List Token} :
    Somewhere P (token :: rest) ↔
      P [] token rest ∨ Somewhere (fun before => P (token :: before)) rest := by
  constructor
  · rintro ⟨before, found, after, hsplit, hfound⟩
    cases before with
    | nil =>
        cases hsplit
        exact .inl hfound
    | cons first before =>
        cases hsplit
        exact .inr ⟨before, found, after, rfl, hfound⟩
  · rintro (hfirst | ⟨before, found, after, rfl, hfound⟩)
    · exact ⟨[], token, rest, rfl, hfirst⟩
    · exact ⟨token :: before, found, after, rfl, hfound⟩

theorem somewhere_concat {P : List Token → Token → Prop} {part : List Token}
    {token : Token} :
    Somewhere (fun before token _ => P before token) (part ++ [token]) ↔
      Somewhere (fun before token _ => P before token) part ∨ P part token := by
  induction part generalizing P with
  | nil =>
      rw [List.nil_append, somewhere_cons, or_comm]; simp only [not_somewhere_nil]
  | cons first part ih =>
      rw [List.cons_append, somewhere_cons, somewhere_cons, ih, or_assoc]

theorem not_afterRedirection_nil : ¬AfterRedirection [] := by
  rintro ⟨token, hlast, -⟩
  cases hlast

theorem afterRedirection_concat {before : List Token} {token : Token} :
    AfterRedirection (before ++ [token]) ↔ isRedirection token = true := by
  simp [AfterRedirection]

theorem NamedBy.concat {name : String} {part : List Token}
    (hname : NamedBy name part) (token : Token) : NamedBy name (part ++ [token]) :=
  somewhere_concat.mpr (.inl hname)

theorem named_of_namedBy {name : String} {part : List Token}
    (hname : NamedBy name part) :
    Named part := by
  obtain ⟨before, token, after, hsplit, hfree, -⟩ := hname
  exact ⟨before, token, after, hsplit, hfree⟩

theorem LastRedirection.concat {direction : Token → Bool} {part : List Token}
    {found : Option (Token × Token)} (hlast : LastRedirection direction part found)
    {token : Token} (hother : direction token = false) :
    LastRedirection direction (part ++ [token]) found := by
  match found with
  | none =>
      intro other hmem
      rcases List.mem_append.mp hmem with hmem | hmem
      · exact hlast other hmem
      · rw [List.mem_singleton.mp hmem, hother]
  | some (redirection, path) =>
      obtain ⟨before, after, rfl, hdirection, hlater⟩ := hlast
      refine ⟨before, after ++ [token], by simp, hdirection, ?_⟩
      intro later hmem
      rw [← List.cons_append, List.mem_append, List.mem_singleton] at hmem
      rcases hmem with hmem | rfl
      · exact hlater later hmem
      · exact hother

private theorem lastRedirection_pair {direction : Token → Bool} (part : List Token)
    {token path : Token} (hdirection : direction token = true)
    (hpath : direction path = false) :
    LastRedirection direction (part ++ [token] ++ [path]) (some (token, path)) :=
  ⟨part, [], by simp, hdirection, by simp [hpath]⟩

theorem Redirects.concat {part : List Token} {redirections : Redirections}
    (hredirects : Redirects part redirections) {token : Token}
    (hother : isRedirection token = false) :
    Redirects (part ++ [token]) redirections := by
  rw [isRedirection, Bool.or_eq_false_iff] at hother
  obtain ⟨input, hinput, hstdin⟩ := hredirects.stdin
  obtain ⟨output, houtput, hstdout⟩ := hredirects.stdout
  exact ⟨⟨input, hinput.concat hother.1, hstdin⟩,
    ⟨output, houtput.concat hother.2, hstdout⟩⟩

theorem isRedirection_eq_false {token : Token}
    (hkind : token.kind = .word ∨ token.kind = .pipe ∨ token.kind = .endOfOptions) :
    isRedirection token = false := by
  rcases hkind with hkind | hkind | hkind <;>
    simp [isRedirection, isOutputRedirection, hkind]

theorem not_afterRedirection_concat {before : List Token} {token : Token}
    (hother : isRedirection token = false) :
    ¬AfterRedirection (before ++ [token]) := by
  rw [afterRedirection_concat, hother]
  exact Bool.false_ne_true

theorem not_dangling {token : Token}
    (hkind : token.kind = .word ∨ token.kind = .pipe ∨ token.kind = .endOfOptions)
    (after : List Token) : ¬Dangling token after := by
  rintro ⟨hredirection, -⟩
  rw [isRedirection_eq_false hkind] at hredirection
  cases hredirection

theorem Redirects.concat_redirection {part : List Token} {draft : Draft}
    (hredirects : Redirects part draft.redirections) {token path : Token}
    (hredirection : isRedirection token = true) (hpath : path.kind = .word) :
    Redirects (part ++ [token] ++ [path])
      (draft.redirect token.kind path.value).redirections := by
  have hinput : isInputRedirection path = false := by
    simp [isInputRedirection, hpath]
  have houtput : isOutputRedirection path = false := by
    simp [isOutputRedirection, hpath]
  obtain ⟨input, hlastInput, hstdin⟩ := hredirects.stdin
  obtain ⟨output, hlastOutput, hstdout⟩ := hredirects.stdout
  cases hkind : token.kind with
  | word | pipe | endOfOptions =>
      rw [isRedirection_eq_false (by simp [hkind])] at hredirection
      cases hredirection
  | redirectIn =>
      have hother : isOutputRedirection token = false := by
        simp [isOutputRedirection, hkind]
      have hself : isInputRedirection token = true := by
        simp [isInputRedirection, hkind]
      exact ⟨⟨_, lastRedirection_pair part hself hinput, rfl⟩,
        ⟨output, (hlastOutput.concat hother).concat houtput, hstdout⟩⟩
  | redirectOut | redirectAppend =>
      have hother : isInputRedirection token = false := by
        simp [isInputRedirection, hkind]
      have hself : isOutputRedirection token = true := by
        simp [isOutputRedirection, hkind]
      refine ⟨⟨input, (hlastInput.concat hother).concat hinput, hstdin⟩,
        ⟨_, lastRedirection_pair part hself houtput, ?_⟩⟩
      simp [Draft.redirect, hkind]

theorem lacksName_iff {value : String} :
    lacksName value = true ↔
      ∃ rest, value.toList = '-' :: '-' :: '=' :: rest ∨
        value.toList = '-' :: '=' :: rest := by
  rw [lacksName, Bool.or_eq_true, Text.startsWith_iff, Text.startsWith_iff,
    ← exists_or]
  rfl

private theorem longOption_error_iff {token : Token} {body : List Char}
    {next : Option Token} {index : Nat} :
    (∃ error, longOption token body next index = .error error) ↔
      body.head? = some '=' := by
  unfold longOption
  cases body with
  | nil => cases valueFrom next <;> simp [Text.cutChars]
  | cons c rest =>
      by_cases hequals : c = '='
      · simp [Text.cutChars, hequals]
      · rw [Text.cutChars, if_neg hequals]
        rcases Text.cutChars '=' rest with ⟨before, none | value⟩
        · cases valueFrom next <;> simp [hequals]
        · simp [hequals]

private theorem shortOptions_error_iff {token : Token} {body : List Char}
    {next : Option Token} {index : Nat} :
    (∃ error, shortOptions token body next index = .error error) ↔
      body.head? = some '=' := by
  unfold shortOptions
  cases body with
  | nil => simp [Text.cutChars]
  | cons c rest =>
      by_cases hequals : c = '='
      · simp [Text.cutChars, hequals]
      · rw [Text.cutChars, if_neg hequals]
        rcases Text.cutChars '=' rest with ⟨before, none | value⟩
        · cases before with
          | nil => cases valueFrom next <;> simp [hequals]
          | cons d before => simp [hequals]
        · simp [hequals]

theorem shape_of_dashes {value : String} {rest : List Char}
    (hchars : value.toList = '-' :: '-' :: rest) : Shape.of value = .long rest := by
  unfold Shape.of
  rw [hchars]
  rfl

private theorem shape_of_dash_equals {value : String} {rest : List Char}
    (hchars : value.toList = '-' :: '=' :: rest) :
    Shape.of value = .short ('=' :: rest) := by
  have hnumeral : isNumeral '=' = false := by decide
  have hnumber : isNumber value = false := by
    rw [isNumber, hchars]
    simp [isNumberChars, hnumeral]
  unfold Shape.of
  rw [hchars, hnumber]
  rfl

private theorem toList_of_shape_long {value : String} {body : List Char}
    (hshape : Shape.of value = .long body) : value.toList = '-' :: '-' :: body := by
  unfold Shape.of at hshape
  split at hshape
  · rename_i rest hchars
    cases hshape
    exact hchars
  · split at hshape <;> cases hshape
  · cases hshape

private theorem toList_of_shape_short {value : String} {body : List Char}
    (hshape : Shape.of value = .short body) : value.toList = '-' :: body := by
  unfold Shape.of at hshape
  split at hshape
  · cases hshape
  · rename_i rest _ hchars
    split at hshape
    · cases hshape
    · cases hshape
      exact hchars
  · cases hshape

private theorem Draft.addWord_error_iff {draft : Draft} {token : Token}
    {next : Option Token} : (∃ error, draft.addWord token next = .error error) ↔
      draft.name.isSome = true ∧ draft.optionsEnded = false ∧
        lacksName token.value = true := by
  unfold Draft.addWord
  cases draft.name with
  | none => simp
  | some name =>
      cases draft.optionsEnded with
      | true => simp
      | false =>
          simp only [Bool.false_eq_true, if_false, Option.isSome_some, true_and]
          rw [lacksName_iff]
          cases hshape : Shape.of token.value with
          | argument =>
              constructor
              · rintro ⟨error, herror⟩
                cases herror
              · rintro ⟨rest, hchars | hchars⟩
                · rw [shape_of_dashes hchars] at hshape
                  cases hshape
                · rw [shape_of_dash_equals hchars] at hshape
                  cases hshape
          | long body =>
              simp only [exists_map_error_iff, longOption_error_iff,
                toList_of_shape_long hshape, List.head?_eq_some_iff]
              simp
          | short body =>
              have hchars := toList_of_shape_short hshape
              simp only [exists_map_error_iff, shortOptions_error_iff, hchars,
                List.head?_eq_some_iff]
              constructor
              · rintro ⟨rest, rfl⟩
                exact ⟨rest, .inr rfl⟩
              · rintro ⟨rest, hlong | hequals⟩
                · rw [shape_of_dashes (hchars.trans hlong)] at hshape
                  cases hshape
                · exact ⟨rest, (List.cons.inj hequals).2⟩

/-- What has been read of a part, and the draft that it has led to. -/
structure Draft.Covers (consumed : List Token) (draft : Draft) : Prop where
  free : ¬AfterRedirection consumed
  name : ∀ name ∈ draft.name, NamedBy name consumed
  nameless : draft.name = none → ¬Named consumed
  ended : draft.optionsEnded = true ↔ ∃ token ∈ consumed, token.kind = .endOfOptions
  redirections : Redirects consumed draft.redirections

private theorem Draft.covers_empty : Draft.Covers [] .empty where
  free := not_afterRedirection_nil
  name := nofun
  nameless _ := not_somewhere_nil
  ended := by simp [Draft.empty]
  redirections := ⟨⟨none, nofun, rfl⟩, ⟨none, nofun, rfl⟩⟩

namespace Draft.Covers

variable {consumed : List Token} {draft : Draft} {token : Token}

private theorem named_iff (hcovers : Draft.Covers consumed draft) :
    draft.name.isSome = true ↔ Named consumed := by
  cases hname : draft.name with
  | none => simpa using hcovers.nameless hname
  | some name => simpa using named_of_namedBy (hcovers.name name hname)

private theorem optionsEnded_eq_false_iff (hcovers : Draft.Covers consumed draft) :
    draft.optionsEnded = false ↔ ∀ token ∈ consumed, token.kind ≠ .endOfOptions := by
  rw [← Bool.not_eq_true, hcovers.ended]
  simp

theorem concat (hcovers : Draft.Covers consumed draft)
    (hkind : token.kind = .pipe ∨ token.kind = .endOfOptions) {ended : Bool}
    (hended : ended = true ↔ draft.optionsEnded = true ∨
      token.kind = .endOfOptions) :
    Draft.Covers (consumed ++ [token]) { draft with optionsEnded := ended } := by
  have hother := isRedirection_eq_false (.inr hkind)
  have hword : token.kind ≠ .word := by
    rcases hkind with hkind | hkind <;> simp [hkind]
  refine ⟨not_afterRedirection_concat hother, ?_, ?_, ?_,
    hcovers.redirections.concat hother⟩
  · intro name hname
    exact (hcovers.name name hname).concat token
  · intro hname hnamed
    rcases somewhere_concat.mp hnamed with hnamed | hfree
    · exact hcovers.nameless hname hnamed
    · exact hword hfree.1
  · rw [hended, hcovers.ended]
    simp [or_and_right, exists_or]

theorem concat_word (hcovers : Draft.Covers consumed draft)
    (hnamed : draft.name.isSome = true) (hkind : token.kind = .word) :
    Draft.Covers (consumed ++ [token]) draft := by
  have hother := isRedirection_eq_false (.inl hkind)
  refine ⟨not_afterRedirection_concat hother, ?_, ?_, ?_,
    hcovers.redirections.concat hother⟩
  · intro name hname
    exact (hcovers.name name hname).concat token
  · intro hname
    rw [hname] at hnamed
    cases hnamed
  · rw [hcovers.ended]
    simp [hkind, or_and_right, exists_or]

private theorem concat_name (hcovers : Draft.Covers consumed draft)
    (hname : draft.name = none) (hkind : token.kind = .word) :
    Draft.Covers (consumed ++ [token]) { draft with name := some token.value } := by
  have hother := isRedirection_eq_false (.inl hkind)
  refine ⟨not_afterRedirection_concat hother, ?_, nofun, ?_,
    hcovers.redirections.concat hother⟩
  · rintro name ⟨⟩
    exact somewhere_concat.mpr
      (.inr ⟨⟨hkind, hcovers.free⟩, hcovers.nameless hname, rfl⟩)
  · rw [hcovers.ended]
    simp [hkind, or_and_right, exists_or]

private theorem concat_wordStep (hcovers : Draft.Covers consumed draft)
    (hkind : token.kind = .word) {next : Option Token} {result : Draft}
    {taken : Bool} (hstep : Draft.WordStep draft token next result taken) :
    Draft.Covers (consumed ++ [token]) result ∧ result.name.isSome = true := by
  cases hstep with
  | name hname => exact ⟨hcovers.concat_name hname hkind, rfl⟩
  | argument hnamed hplain =>
      obtain ⟨hfree, hname, hnameless, hended, hredirections⟩ :=
        hcovers.concat_word hnamed hkind
      exact ⟨⟨hfree, hname, hnameless, hended, hredirections⟩, hnamed⟩
  | option hnamed hopen hshape hword =>
      obtain ⟨hfree, hname, hnameless, hended, hredirections⟩ :=
        hcovers.concat_word hnamed hkind
      exact ⟨⟨hfree, hname, hnameless, hended, hredirections⟩, hnamed⟩

private theorem concat_redirection (hcovers : Draft.Covers consumed draft)
    (hredirection : isRedirection token = true) {path : Token}
    (hpath : path.kind = .word) :
    Draft.Covers (consumed ++ [token] ++ [path])
      (draft.redirect token.kind path.value) := by
  have hother := isRedirection_eq_false (.inl hpath)
  have hword : token.kind ≠ .word := by
    intro hkind
    rw [isRedirection_eq_false (.inl hkind)] at hredirection
    cases hredirection
  have hnoMark : token.kind ≠ .endOfOptions := by
    intro hkind
    rw [isRedirection_eq_false (.inr (.inr hkind))] at hredirection
    cases hredirection
  have hname : (draft.redirect token.kind path.value).name = draft.name := by
    unfold Draft.redirect
    split <;> rfl
  have hended : (draft.redirect token.kind path.value).optionsEnded =
      draft.optionsEnded := by
    unfold Draft.redirect
    split <;> rfl
  refine ⟨not_afterRedirection_concat hother, ?_, ?_, ?_, ?_⟩
  · intro name hmem
    rw [hname] at hmem
    exact ((hcovers.name name hmem).concat token).concat path
  · intro hnone hnamed
    rw [hname] at hnone
    rcases somewhere_concat.mp hnamed with hnamed | hfree
    · rcases somewhere_concat.mp hnamed with hnamed | hfree
      · exact hcovers.nameless hnone hnamed
      · exact hword hfree.1
    · exact hfree.2 (afterRedirection_concat.mpr hredirection)
  · rw [hended, hcovers.ended]
    simp [hpath, hnoMark, or_and_right, exists_or]
  · exact hcovers.redirections.concat_redirection hredirection hpath

end Draft.Covers

def Faulty (before : List Token) (token : Token) (after : List Token) : Prop :=
  Dangling token after ∨ BadOption before token

def FaultyAfter (consumed : List Token) : List Token → Prop :=
  Somewhere fun before => Faulty (consumed ++ before)

theorem faultyAfter_cons {consumed rest : List Token} {token : Token} :
    FaultyAfter consumed (token :: rest) ↔
      Faulty consumed token rest ∨ FaultyAfter (consumed ++ [token]) rest := by
  simp only [FaultyAfter, somewhere_cons, List.append_nil, List.append_assoc,
    List.singleton_append]

def Draft.Scanned (consumed tokens : List Token) : Except ParseError Draft → Prop
  | .ok final =>
      Draft.Covers (consumed ++ tokens) final ∧ ¬FaultyAfter consumed tokens
  | .error _ => FaultyAfter consumed tokens

private theorem Draft.Scanned.cons {consumed rest : List Token} {token : Token}
    {result : Except ParseError Draft} (hsound : ¬Faulty consumed token rest)
    (hrest : Draft.Scanned (consumed ++ [token]) rest result) :
    Draft.Scanned consumed (token :: rest) result := by
  cases result with
  | error error => exact faultyAfter_cons.mpr (.inr hrest)
  | ok final =>
      obtain ⟨hcovers, hclean⟩ := hrest
      rw [List.append_assoc, List.singleton_append] at hcovers
      refine ⟨hcovers, ?_⟩
      rw [faultyAfter_cons]
      rintro (hfaulty | hfaulty)
      · exact hsound hfaulty
      · exact hclean hfaulty

private theorem not_faulty_of_kind {token : Token}
    (hkind : token.kind = .pipe ∨ token.kind = .endOfOptions)
    (consumed rest : List Token) : ¬Faulty consumed token rest := by
  rintro (hdangling | hbad)
  · exact not_dangling (.inr hkind) rest hdangling
  · rcases hkind with hkind | hkind <;> simp [BadOption, FreeWord, hkind] at hbad

/-- A word is at fault exactly if it cannot be added. -/
theorem Draft.Covers.faulty_word_iff {consumed rest : List Token} {draft : Draft}
    {token : Token} (hcovers : Draft.Covers consumed draft)
    (hkind : token.kind = .word) (next : Option Token) :
    Faulty consumed token rest ↔
      ∃ error, draft.addWord token next = .error error := by
  have hsteady : ¬Dangling token rest := not_dangling (.inl hkind) rest
  have hfree : FreeWord consumed token := ⟨hkind, hcovers.free⟩
  rw [Draft.addWord_error_iff, hcovers.named_iff, hcovers.optionsEnded_eq_false_iff]
  simp only [Faulty, hsteady, false_or, BadOption, hfree, true_and]

private theorem Draft.WordStep.isOptionValue_of_taken {draft result : Draft}
    {token value : Token} (hstep : Draft.WordStep draft token (some value)
      result true) :
    isOptionValue value = true := by
  cases hstep with
  | option _ _ _ hword =>
      cases hword with
      | taking _ hnext hvalue =>
          cases hnext
          exact hvalue

private theorem not_faulty_of_isOptionValue {token : Token}
    (hvalue : isOptionValue token = true) (consumed rest : List Token) :
    ¬Faulty consumed token rest := by
  rw [isOptionValue, Bool.and_eq_true, decide_eq_true_eq] at hvalue
  rintro (hdangling | ⟨-, -, -, hlacks⟩)
  · exact not_dangling (.inl hvalue.1) rest hdangling
  · obtain ⟨after, hchars | hchars⟩ :=
      lacksName_iff.mp hlacks <;> simp [hchars] at hvalue

private theorem isRedirection_of_kind {token : Token} (hpipe : token.kind ≠ .pipe)
    (hmark : token.kind ≠ .endOfOptions) (hword : token.kind ≠ .word) :
    isRedirection token = true := by
  cases hkind : token.kind <;> simp_all [isRedirection, isOutputRedirection]

private theorem not_faulty_redirection {token path : Token}
    (hredirection : isRedirection token = true) (hpath : path.kind = .word)
    (consumed rest : List Token) :
    ¬Faulty consumed token (path :: rest) ∧
      ¬Faulty (consumed ++ [token]) path rest := by
  constructor
  · rintro (⟨-, hnext⟩ | ⟨⟨hword, -⟩, -⟩)
    · exact hnext path rfl hpath
    · rw [isRedirection_eq_false (.inl hword)] at hredirection
      cases hredirection
  · rintro (hdangling | ⟨⟨-, hfree⟩, -⟩)
    · exact not_dangling (.inl hpath) rest hdangling
    · exact hfree (afterRedirection_concat.mpr hredirection)

private theorem Draft.scan_scanned {draft : Draft} {tokens consumed : List Token}
    (hcovers : Draft.Covers consumed draft) :
    Draft.Scanned consumed tokens (draft.scan tokens) := by
  fun_induction Draft.scan draft tokens generalizing consumed with
  | case1 draft =>
      rw [Draft.Scanned, List.append_nil]
      exact ⟨hcovers, not_somewhere_nil⟩
  | case2 draft token rest hkind ih =>
      refine Draft.Scanned.cons (not_faulty_of_kind (.inl hkind) _ _) (ih ?_)
      exact hcovers.concat (.inl hkind) (by simp [hkind])
  | case3 draft token rest hkind ih =>
      refine Draft.Scanned.cons (not_faulty_of_kind (.inr hkind) _ _) (ih ?_)
      exact hcovers.concat (.inr hkind) (by simp [hkind])
  | case4 draft token hkind =>
      cases hadd : draft.addWord token none with
      | error error =>
          exact faultyAfter_cons.mpr
            (.inl ((hcovers.faulty_word_iff hkind none).mpr ⟨_, hadd⟩))
      | ok outcome =>
          have hsound : ¬Faulty consumed token [] := by
            rw [hcovers.faulty_word_iff hkind none, hadd]
            rintro ⟨error, ⟨⟩⟩
          refine Draft.Scanned.cons hsound ⟨?_, not_somewhere_nil⟩
          rw [List.append_nil]
          exact (hcovers.concat_wordStep hkind (Draft.addWord_ok hadd)).1
  | case5 draft token hkind next after error hadd =>
      exact faultyAfter_cons.mpr
        (.inl ((hcovers.faulty_word_iff hkind (some next)).mpr ⟨_, hadd⟩))
  | case6 draft token hkind next after result hadd ih =>
      -- The word takes the next one as its value, so two tokens are consumed at
      -- once.
      have hstep := Draft.addWord_ok hadd
      have hvalue := hstep.isOptionValue_of_taken
      have hword : next.kind = .word := by
        rw [isOptionValue, Bool.and_eq_true, decide_eq_true_eq] at hvalue
        exact hvalue.1
      have hsound : ¬Faulty consumed token (next :: after) := by
        rw [hcovers.faulty_word_iff hkind (some next), hadd]
        rintro ⟨error, ⟨⟩⟩
      obtain ⟨hnext, hnamed⟩ := hcovers.concat_wordStep hkind hstep
      refine Draft.Scanned.cons hsound ?_
      refine Draft.Scanned.cons (not_faulty_of_isOptionValue hvalue _ _) (ih ?_)
      exact hnext.concat_word hnamed hword
  | case7 draft token hkind next after result hadd ih =>
      have hsound : ¬Faulty consumed token (next :: after) := by
        rw [hcovers.faulty_word_iff hkind (some next), hadd]
        rintro ⟨error, ⟨⟩⟩
      exact Draft.Scanned.cons hsound
        (ih (hcovers.concat_wordStep hkind (Draft.addWord_ok hadd)).1)
  | case8 draft token hpipe hmark hword =>
      have hredirection := isRedirection_of_kind hpipe hmark hword
      refine faultyAfter_cons.mpr (.inl (.inl ⟨hredirection, ?_⟩))
      rintro next ⟨⟩
  | case9 draft token path after hpath hpipe hmark hword ih =>
      have hredirection := isRedirection_of_kind hpipe hmark hword
      obtain ⟨hfirst, hsecond⟩ :=
        not_faulty_redirection hredirection hpath consumed after
      exact Draft.Scanned.cons hfirst
        (Draft.Scanned.cons hsecond
          (ih (hcovers.concat_redirection hredirection hpath)))
  | case10 draft token path after hpath hpipe hmark hword =>
      have hredirection := isRedirection_of_kind hpipe hmark hword
      refine faultyAfter_cons.mpr (.inl (.inl ⟨hredirection, ?_⟩))
      rintro next ⟨⟩
      exact hpath

structure Sound (part : List Token) : Prop where
  named : Named part
  paths : ¬Somewhere (fun _ token after => Dangling token after) part
  options : ¬Somewhere (fun before token _ => BadOption before token) part

structure Feeding (part : List Token) : Prop extends Sound part where
  output : ∀ token ∈ part, isOutputRedirection token = false

private theorem faultyAfter_nil_iff {part : List Token} :
    FaultyAfter [] part ↔
      Somewhere (fun _ token after => Dangling token after) part ∨
        Somewhere (fun before token _ => BadOption before token) part := by
  constructor
  · rintro ⟨before, token, after, hsplit, hdangling | hbad⟩
    · exact .inl ⟨before, token, after, hsplit, hdangling⟩
    · exact .inr ⟨before, token, after, hsplit, hbad⟩
  · rintro (⟨before, token, after, hsplit, hdangling⟩ | ⟨before, token, after,
      hsplit, hbad⟩)
    · exact ⟨before, token, after, hsplit, .inl hdangling⟩
    · exact ⟨before, token, after, hsplit, .inr hbad⟩

private theorem malformed_iff {initial : List (List Token)} {last : List Token} :
    Malformed (initial ++ [last]) ↔
      ¬((∀ part ∈ initial, Feeding part) ∧ Sound last) := by
  constructor
  · rintro hmalformed ⟨hinitial, hlast⟩
    have hsound : ∀ part ∈ initial ++ [last], Sound part := by
      intro part hpart
      rcases List.mem_append.mp hpart with hpart | hpart
      · exact (hinitial part hpart).toSound
      · exact List.mem_singleton.mp hpart ▸ hlast
    cases hmalformed with
    | empty hpart => exact not_somewhere_nil (hsound [] hpart).named
    | dangling hpart hplace => exact (hsound _ hpart).paths hplace
    | nameless hpart hname => exact hname (hsound _ hpart).named
    | redirected hpart htoken hout =>
        rw [List.dropLast_concat] at hpart
        rw [(hinitial _ hpart).output _ htoken] at hout
        cases hout
    | badOption hpart hplace => exact (hsound _ hpart).options hplace
  · intro hnot
    apply Classical.byContradiction
    intro hwell
    have hsound : ∀ part ∈ initial ++ [last], Sound part := by
      intro part hpart
      refine ⟨?_, ?_, ?_⟩
      · exact Classical.byContradiction fun hname => hwell (.nameless hpart hname)
      · exact fun hplace => hwell (.dangling hpart hplace)
      · exact fun hplace => hwell (.badOption hpart hplace)
    apply hnot
    refine ⟨?_, hsound last (by simp)⟩
    intro part hpart
    refine ⟨hsound part (List.mem_append_left _ hpart), ?_⟩
    intro token htoken
    rw [← Bool.not_eq_true]
    intro hout
    exact hwell (.redirected (by rwa [List.dropLast_concat]) htoken hout)

theorem parseInvocation_reads (part : List Token) :
    match parseInvocation part with
    | .ok invocation => Sound part ∧ Reads part invocation
    | .error _ => ¬Sound part := by
  have hscanned : Draft.Scanned [] part (Draft.empty.scan part) :=
    Draft.scan_scanned Draft.covers_empty
  unfold parseInvocation
  cases hscan : Draft.empty.scan part with
  | error error =>
      rw [hscan, Draft.Scanned, faultyAfter_nil_iff] at hscanned
      rintro ⟨-, hpaths, hoptions⟩
      rcases hscanned with hplace | hplace
      · exact hpaths hplace
      · exact hoptions hplace
  | ok final =>
      rw [hscan, Draft.Scanned, faultyAfter_nil_iff, not_or] at hscanned
      obtain ⟨hcovers, hpaths, hoptions⟩ := hscanned
      dsimp only [Draft.finish]
      cases hname : final.name with
      | none => exact fun hsound => hcovers.nameless hname hsound.named
      | some name =>
          have hnamed := hcovers.name name hname
          exact ⟨⟨named_of_namedBy hnamed, hpaths, hoptions⟩, hnamed,
            hcovers.redirections⟩

private theorem Redirects.stdout_eq_none_iff {part : List Token}
    {redirections : Redirections} (hredirects : Redirects part redirections) :
    redirections.stdout = none ↔
      ∀ token ∈ part, isOutputRedirection token = false := by
  obtain ⟨found, hlast, hstdout⟩ := hredirects.stdout
  rw [hstdout]
  match found, hlast with
  | none, hlast => exact ⟨fun _ => hlast, fun _ => rfl⟩
  | some (token, path), ⟨before, after, hsplit, hout, _⟩ =>
      refine ⟨nofun, fun hnone => ?_⟩
      rw [hnone token (by simp [hsplit])] at hout
      cases hout

private theorem parseSegment_reads (segment : Segment) :
    match parseSegment segment with
    | .ok invocation =>
        Feeding segment.tokens ∧ Reads segment.tokens invocation ∧
          invocation.redirections.stdout = none
    | .error _ => ¬Feeding segment.tokens := by
  have hinvocation := parseInvocation_reads segment.tokens
  unfold parseSegment
  by_cases hends : endsInRedirection segment.tokens = true
  · rw [if_pos hends]
    intro hfeeding
    rw [endsInRedirection_eq_false hfeeding.output] at hends
    cases hends
  · rw [if_neg hends]
    by_cases hempty : segment.tokens.isEmpty = true
    · rw [if_pos hempty]
      intro hfeeding
      have hnamed := hfeeding.named
      rw [List.isEmpty_iff.mp hempty] at hnamed
      exact not_somewhere_nil hnamed
    · rw [if_neg hempty]
      cases hparse : parseInvocation segment.tokens with
      | error error =>
          rw [hparse] at hinvocation
          exact fun hfeeding => hinvocation hfeeding.toSound
      | ok invocation =>
          rw [hparse] at hinvocation
          obtain ⟨hsound, hreads⟩ := hinvocation
          have hstdout := hreads.redirections.stdout_eq_none_iff
          cases hout : invocation.redirections.stdout with
          | some output =>
              simp only [hout, Option.isSome_some, if_true]
              intro hfeeding
              rw [hstdout.mpr hfeeding.output] at hout
              cases hout
          | none =>
              simp only [hout, Option.isSome_none, Bool.false_eq_true, if_false]
              exact ⟨⟨hsound, hstdout.mp hout⟩, hreads, trivial⟩

private theorem parseSegments_reads (closed : List Segment) :
    match parseSegments closed with
    | .ok invocations =>
        (∀ part ∈ closed.map Segment.tokens, Feeding part) ∧
          List.Forall₂ Reads (closed.map Segment.tokens) invocations ∧
          ∀ invocation ∈ invocations, invocation.redirections.stdout = none
    | .error _ => ¬∀ part ∈ closed.map Segment.tokens, Feeding part := by
  induction closed with
  | nil => exact ⟨nofun, .nil, nofun⟩
  | cons segment closed ih =>
      have hsegment := parseSegment_reads segment
      rw [parseSegments]
      cases hfirst : parseSegment segment with
      | error error =>
          rw [hfirst] at hsegment
          exact fun hall => hsegment (hall _ List.mem_cons_self)
      | ok invocation =>
          rw [hfirst] at hsegment
          obtain ⟨hfeeding, hreads, hstdout⟩ := hsegment
          cases hrest : parseSegments closed with
          | error error =>
              rw [hrest] at ih
              exact fun hall => ih fun part hpart =>
                hall part (List.mem_cons_of_mem _ hpart)
          | ok invocations =>
              rw [hrest] at ih
              obtain ⟨hall, hothers, hnone⟩ := ih
              exact ⟨List.forall_mem_cons.mpr ⟨hfeeding, hall⟩, .cons hreads hothers,
                List.forall_mem_cons.mpr ⟨hstdout, hnone⟩⟩

private theorem parts_eq_segments (tokens : List Token) :
    parts tokens = (segments tokens).1.map Segment.tokens ++
      [(segments tokens).2] := by
  induction tokens with
  | nil => rfl
  | cons token rest ih =>
      rw [parts] at ih
      rw [parts, List.splitOnP_cons_eq_if_modifyHead, ih, segments]
      by_cases hpipe : token.kind = .pipe
      · simp [hpipe]
      · cases hclosed : (segments rest).1 with
        | nil => simp [hpipe, hclosed]
        | cons segment closed => simp [hpipe, hclosed]

/-- Parsing fails exactly for malformed lines. Otherwise each part becomes an
invocation of the command that it names, with the last of its redirections, and only
the last part can write to a file. -/
theorem parseTokens_grammar {tokens : List Token} (hsome : tokens ≠ []) :
    ((∃ error, parseTokens tokens = .error error) ↔ Malformed (parts tokens)) ∧
      ∀ result, parseTokens tokens = .ok result →
        ∃ pipeline, result = some pipeline ∧
          List.Forall₂ Reads (parts tokens) pipeline ∧
          ∀ invocation ∈ pipeline.dropLast,
            invocation.redirections.stdout = none := by
  have hclosed := parseSegments_reads (segments tokens).1
  have hlast := parseInvocation_reads (segments tokens).2
  rw [parts_eq_segments, malformed_iff]
  unfold parseTokens
  rw [if_neg (by simpa using hsome)]
  dsimp only
  cases hinitial : parseSegments (segments tokens).1 with
  | error error =>
      rw [hinitial] at hclosed
      refine ⟨⟨fun _ hwell => hclosed hwell.1, fun _ => ⟨error, rfl⟩⟩, nofun⟩
  | ok invocations =>
      rw [hinitial] at hclosed
      obtain ⟨hfeeding, hreads, hstdout⟩ := hclosed
      by_cases hempty : (segments tokens).2.isEmpty = true
      · simp only [if_pos hempty]
        refine ⟨⟨fun _ hwell => ?_, fun _ => ⟨_, rfl⟩⟩, nofun⟩
        have hnamed := hwell.2.named
        rw [List.isEmpty_iff.mp hempty] at hnamed
        exact not_somewhere_nil hnamed
      · simp only [if_neg hempty]
        cases hfinal : parseInvocation (segments tokens).2 with
        | error error =>
            rw [hfinal] at hlast
            exact ⟨⟨fun _ hwell => hlast hwell.2, fun _ => ⟨error, rfl⟩⟩, nofun⟩
        | ok invocation =>
            rw [hfinal] at hlast
            constructor
            · constructor
              · nofun
              · intro hnot
                exact absurd ⟨hfeeding, hlast.1⟩ hnot
            · rintro result ⟨⟩
              refine ⟨invocations ++ [invocation], rfl, ?_, ?_⟩
              · exact List.rel_append hreads (.cons hlast.2 .nil)
              · rwa [List.dropLast_concat]

def plainWord (value : String) : Token := ⟨.word, value, ⟨0, value.length⟩, false⟩

/-- A name between redirections, two of them for the output, and a word that is no
option only because the options have ended. -/
def redirectedTwice : List Token :=
  [.operator .redirectIn "<" 0, plainWord "-=in", plainWord "cat",
    ⟨.endOfOptions, "--", ⟨0, 2⟩, false⟩, .operator .redirectOut ">" 0,
    plainWord "first", plainWord "--=x", .operator .redirectAppend ">>" 0,
    plainWord "second"]

/-- The same word before the options have ended, and nothing after the pipe. -/
def unfinished : List Token :=
  [plainWord "cat", plainWord "--=x", .operator .pipe "|" 0]

theorem parseTokens_grammar_samples :
    (∃ pipeline, parseTokens redirectedTwice = .ok (some pipeline) ∧
        List.Forall₂ Reads (parts redirectedTwice) pipeline) ∧
      Malformed (parts unfinished) := by
  refine ⟨⟨[⟨"cat", ["--=x"], [], ⟨some "-=in", some ⟨"second", true⟩⟩⟩], by decide,
    ?_⟩, ?_⟩
  · obtain ⟨pipeline, hpipeline, hreads, -⟩ :=
      (parseTokens_grammar (by decide : redirectedTwice ≠ [])).2 _ rfl
    cases hpipeline
    exact hreads
  · exact (parseTokens_grammar (by decide : unfinished ≠ [])).1.mp ⟨_, rfl⟩

end PipeShell.Pipeline
