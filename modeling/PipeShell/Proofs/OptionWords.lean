import PipeShell.Proofs.Grammar

namespace PipeShell.Pipeline

theorem notMem_of_cutChars {separator : Char} {text before : List Char}
    {after : Option (List Char)}
    (hcut : Text.cutChars separator text = (before, after)) :
    separator ∉ before := by
  cases after with
  | none =>
      obtain ⟨rfl, habsent⟩ := Text.cutChars_none hcut
      exact habsent
  | some after =>
      obtain ⟨front, back, rfl, hfront⟩ :=
        List.eq_append_cons_of_mem (Text.cutChars_some hcut)
      rw [Text.cutChars_append hfront] at hcut
      cases hcut
      exact hfront

private theorem spelled_long {occurrence : Occurrence} {name : List Char}
    (hlong : occurrence.isLong = true) (hname : occurrence.name = String.ofList name)
    (hequals : '=' ∉ name) (hvalue : occurrence.value.isSome = occurrence.hasValue) :
    occurrence.Spelled where
  value_iff := by rw [hvalue]
  long _ := by rwa [hname, String.toList_ofList]
  short hshort := by rw [hlong] at hshort; cases hshort

theorem spelled_short {occurrence : Occurrence} {c : Char}
    (hshort : occurrence.isLong = false) (hname : occurrence.name = shortName c)
    (hequals : c ≠ '=') (hvalue : occurrence.value.isSome = occurrence.hasValue) :
    occurrence.Spelled where
  value_iff := by rw [hvalue]
  long hlong := by rw [hshort] at hlong; cases hlong
  short _ := ⟨c, hname, hequals⟩

private theorem spelled_of_longOption {token : Token} {body : List Char}
    {next : Option Token} {index : Nat} {occurrence : Occurrence} {taken : Bool}
    (hoption : longOption token body next index = .ok (occurrence, taken)) :
    occurrence.Spelled := by
  unfold longOption at hoption
  cases hcut : Text.cutChars '=' body with
  | mk name attached =>
      have hequals := notMem_of_cutChars hcut
      rw [hcut] at hoption
      cases attached with
      | some value =>
          cases name with
          | nil => cases hoption
          | cons c rest =>
              cases hoption
              exact spelled_long rfl rfl hequals rfl
      | none =>
          cases hvalue : valueFrom next with
          | none =>
              simp only [hvalue] at hoption
              cases hoption
              exact spelled_long rfl rfl hequals rfl
          | some value =>
              simp only [hvalue] at hoption
              cases hoption
              exact spelled_long rfl rfl hequals rfl

private theorem spelled_attachToLast (value : String) (quoted : Bool) (index : Nat)
    {names : List Char} (hequals : '=' ∉ names) :
    ∀ occurrence ∈ attachToLast value quoted index names, occurrence.Spelled := by
  induction names with
  | nil => exact fun _ hmember => absurd hmember List.not_mem_nil
  | cons c rest ih =>
      rw [List.mem_cons, not_or] at hequals
      cases rest with
      | nil =>
          exact List.forall_mem_singleton.mpr
            (spelled_short rfl rfl (Ne.symm hequals.1) rfl)
      | cons d rest =>
          rw [attachToLast]
          · exact List.forall_mem_cons.mpr
              ⟨spelled_short rfl rfl (Ne.symm hequals.1) rfl, ih hequals.2⟩
          · exact List.cons_ne_nil d rest

private theorem spelled_of_shortOptions {token : Token} {body : List Char}
    {next : Option Token} {index : Nat} {occurrences : List Occurrence}
    {taken : Bool} (hoption : shortOptions token body next index =
      .ok (occurrences, taken)) :
    ∀ occurrence ∈ occurrences, occurrence.Spelled := by
  unfold shortOptions at hoption
  cases hcut : Text.cutChars '=' body with
  | mk names attached =>
      have hequals := notMem_of_cutChars hcut
      rw [hcut] at hoption
      cases attached with
      | some value =>
          cases names with
          | nil => cases hoption
          | cons c rest =>
              cases hoption
              exact spelled_attachToLast _ _ _ hequals
      | none =>
          match names, hequals with
          | [], _ =>
              cases hoption
              exact fun _ hmember => absurd hmember List.not_mem_nil
          | [c], hequals =>
              have hletter : c ≠ '=' := fun heq => hequals (heq ▸ List.mem_cons_self)
              cases hvalue : valueFrom next with
              | none =>
                  simp only [hvalue] at hoption
                  cases hoption
                  exact List.forall_mem_singleton.mpr
                    (spelled_short rfl rfl hletter rfl)
              | some value =>
                  simp only [hvalue] at hoption
                  cases hoption
                  exact List.forall_mem_singleton.mpr
                    (spelled_short rfl rfl hletter rfl)
          | c :: d :: rest, hequals =>
              cases hoption
              intro occurrence hmember
              obtain ⟨letter, hletter, rfl⟩ := List.mem_map.mp hmember
              exact spelled_short rfl rfl (fun heq => hequals (heq ▸ hletter)) rfl

private theorem Draft.spelled_addWord {draft result : Draft} {token : Token}
    {next : Option Token} {taken : Bool}
    (hadd : draft.addWord token next = .ok (result, taken))
    (hspelled : ∀ occurrence ∈ draft.options, occurrence.Spelled) :
    ∀ occurrence ∈ result.options, occurrence.Spelled := by
  unfold Draft.addWord at hadd
  split at hadd
  · cases hadd
    exact hspelled
  · split at hadd
    · cases hadd
      exact hspelled
    · split at hadd
      · cases hadd
        exact hspelled
      · next body _ =>
          cases hoption : longOption token body next draft.arguments.length with
          | error error => rw [hoption] at hadd; cases hadd
          | ok found =>
              rw [hoption] at hadd
              cases hadd
              exact List.forall_mem_append.mpr
                ⟨hspelled, List.forall_mem_singleton.mpr
                  (spelled_of_longOption hoption)⟩
      · next body _ =>
          cases hoption : shortOptions token body next draft.arguments.length with
          | error error => rw [hoption] at hadd; cases hadd
          | ok found =>
              rw [hoption] at hadd
              cases hadd
              exact List.forall_mem_append.mpr
                ⟨hspelled, spelled_of_shortOptions hoption⟩

private theorem Draft.spelled_scan {draft final : Draft} {tokens : List Token}
    (hscan : draft.scan tokens = .ok final)
    (hspelled : ∀ occurrence ∈ draft.options, occurrence.Spelled) :
    ∀ occurrence ∈ final.options, occurrence.Spelled := by
  fun_induction Draft.scan draft tokens with
  | case1 draft =>
      cases hscan
      exact hspelled
  | case2 draft token rest hkind ih => exact ih hscan hspelled
  | case3 draft token rest hkind ih => exact ih hscan hspelled
  | case4 draft token hkind =>
      cases hadd : draft.addWord token none with
      | error error => rw [hadd] at hscan; cases hscan
      | ok result =>
          rw [hadd] at hscan
          cases hscan
          exact Draft.spelled_addWord hadd hspelled
  | case5 => cases hscan
  | case6 draft token hkind next after result hadd ih =>
      exact ih hscan (Draft.spelled_addWord hadd hspelled)
  | case7 draft token hkind next after result hadd ih =>
      exact ih hscan (Draft.spelled_addWord hadd hspelled)
  | case8 => cases hscan
  | case9 draft token path after hpath hpipe hended hword ih =>
      have hkept : (draft.redirect token.kind path.value).options =
          draft.options := by
        unfold Draft.redirect
        split <;> rfl
      exact ih hscan (hkept ▸ hspelled)
  | case10 => cases hscan

private theorem spelled_of_parseInvocation {tokens : List Token}
    {invocation : Invocation} (hparse : parseInvocation tokens = .ok invocation) :
    ∀ occurrence ∈ invocation.options, occurrence.Spelled := by
  unfold parseInvocation at hparse
  cases hscan : Draft.empty.scan tokens with
  | error error => rw [hscan] at hparse; cases hparse
  | ok final =>
      rw [hscan] at hparse
      obtain ⟨name, -, rfl⟩ := Draft.finish_ok hparse
      exact Draft.spelled_scan hscan fun _ hmember => absurd hmember List.not_mem_nil

private theorem exists_of_parseSegments {closed : List Segment}
    {invocations : List Invocation}
    (hparse : parseSegments closed = .ok invocations) :
    ∀ invocation ∈ invocations, ∃ part, parseInvocation part = .ok invocation := by
  induction closed generalizing invocations with
  | nil =>
      cases hparse
      exact fun _ hmember => absurd hmember List.not_mem_nil
  | cons segment rest ih =>
      rw [parseSegments] at hparse
      cases hsegment : parseSegment segment with
      | error error => rw [hsegment] at hparse; cases hparse
      | ok invocation =>
          rw [hsegment] at hparse
          cases hrest : parseSegments rest with
          | error error => rw [hrest] at hparse; cases hparse
          | ok others =>
              rw [hrest] at hparse
              cases hparse
              refine List.forall_mem_cons.mpr ⟨⟨segment.tokens, ?_⟩, ih hrest⟩
              unfold parseSegment at hsegment
              split at hsegment
              · cases hsegment
              · split at hsegment
                · cases hsegment
                · split at hsegment
                  · cases hsegment
                  · next hfound =>
                      split at hsegment
                      · cases hsegment
                      · cases hsegment
                        exact hfound

theorem exists_of_parseTokens {tokens : List Token} {pipeline : Pipeline}
    (hparse : parseTokens tokens = .ok (some pipeline)) :
    ∀ invocation ∈ pipeline, ∃ part, parseInvocation part = .ok invocation := by
  unfold parseTokens at hparse
  split at hparse
  · cases hparse
  · simp only at hparse
    cases hclosed : parseSegments (segments tokens).1 with
    | error error => rw [hclosed] at hparse; cases hparse
    | ok invocations =>
        simp only [hclosed] at hparse
        split at hparse
        · cases hparse
        · cases hlast : parseInvocation (segments tokens).2 with
          | error error => rw [hlast] at hparse; cases hparse
          | ok final =>
              rw [hlast] at hparse
              cases hparse
              exact List.forall_mem_append.mpr ⟨exists_of_parseSegments hclosed,
                List.forall_mem_singleton.mpr ⟨_, hlast⟩⟩

private theorem spelled_of_parse {text : String} {pipeline : Pipeline}
    (hparse : parse text = .ok (some pipeline)) :
    ∀ invocation ∈ pipeline, ∀ occurrence ∈ invocation.options,
      occurrence.Spelled := by
  intro invocation hinvocation
  unfold parse at hparse
  split at hparse
  · cases hparse
  · obtain ⟨part, hpart⟩ := exists_of_parseTokens hparse invocation hinvocation
    exact spelled_of_parseInvocation hpart

section Pair

variable {name word : Token} {body : List Char}

theorem parseTokens_pair (hname : name.kind = .word) (hword : word.kind = .word) :
    parseTokens [name, word] =
      (Draft.addWord ⟨some name.value, [], [], false, ⟨none, none⟩⟩ word none >>=
        fun found =>
        found.1.finish.map fun invocation => some [invocation]) := by
  have hcut : segments [name, word] = ([], [name, word]) :=
    segments_of_no_pipe (by simp [hname, hword])
  have hscan : Draft.empty.scan [name, word] =
      Draft.scan ⟨some name.value, [], [], false, ⟨none, none⟩⟩ [word] :=
    Draft.scan_word hname rfl
  simp only [parseTokens, hcut, parseSegments, parseInvocation, hscan,
    Draft.scan, hword]
  cases Draft.addWord ⟨some name.value, [], [], false, ⟨none, none⟩⟩ word
    none <;> rfl

theorem parseTokens_argument (hname : name.kind = .word) (hword : word.kind = .word)
    (hshape : Shape.of word.value = .argument) :
    parseTokens [name, word] =
      .ok (some [⟨name.value, [word.value], [], ⟨none, none⟩⟩]) := by
  rw [parseTokens_pair hname hword]
  simp only [Draft.addWord, hshape]
  rfl

theorem parseTokens_long (hname : name.kind = .word) (hword : word.kind = .word)
    (hshape : Shape.of word.value = .long body) :
    parseTokens [name, word] = (longOption word body none 0).map fun found =>
      some [⟨name.value, [], [found.1], ⟨none, none⟩⟩] := by
  rw [parseTokens_pair hname hword]
  simp only [Draft.addWord, hshape]
  cases longOption word body none 0 <;> rfl

theorem parseTokens_short (hname : name.kind = .word) (hword : word.kind = .word)
    (hshape : Shape.of word.value = .short body) :
    parseTokens [name, word] = (shortOptions word body none 0).map fun found =>
      some [⟨name.value, [], found.1, ⟨none, none⟩⟩] := by
  rw [parseTokens_pair hname hword]
  simp only [Draft.addWord, hshape]
  cases shortOptions word body none 0 <;> rfl

end Pair

/-- Options whose words are taken for something else. -/
inductive Ambiguous (occurrence : Occurrence) : Prop
  | nameless (hlong : occurrence.isLong = true) (hname : occurrence.name = "")
      (hvalue : occurrence.hasValue = true)
  | dash (hshort : occurrence.isLong = false) (hname : occurrence.name = "-")
  | numeral {c : Char} (hshort : occurrence.isLong = false)
      (hvalue : occurrence.hasValue = false) (hname : occurrence.name = shortName c)
      (hnumeral : c = '.' ∨ Text.isDigit c = true)

/-- The tokens are read as a command with one option, which is the given one. -/
def RereadBy (tokens : List Token) (occurrence : Occurrence) : Prop :=
  ∃ invocation again, parseTokens tokens = .ok (some [invocation]) ∧
    invocation.arguments = [] ∧
    invocation.options = [again] ∧ again.name = occurrence.name ∧
    again.isLong = occurrence.isLong ∧ again.hasValue = occurrence.hasValue ∧
    again.value = occurrence.value

variable {occurrence : Occurrence} {name word : Token}

private theorem valueChars_of_value (hvalue : occurrence.hasValue = true) :
    valueChars occurrence = '=' :: (occurrence.value.getD "").toList := by
  rw [valueChars, if_pos hvalue]

private theorem valueChars_of_plain (hvalue : occurrence.hasValue = false) :
    valueChars occurrence = [] := by
  rw [valueChars, hvalue]
  rfl

private theorem rereadBy_of_not_ambiguous (hspelled : occurrence.Spelled)
    (hclear : ¬Ambiguous occurrence) (hname : name.kind = .word)
    (hword : word.kind = .word) (hdescribe : word.value = occurrence.describe) :
    RereadBy [name, word] occurrence := by
  cases hlong : occurrence.isLong with
  | true =>
      have hnamed : occurrence.hasValue = true → occurrence.name ≠ "" :=
        fun hvalue hempty =>
        hclear (.nameless hlong hempty hvalue)
      have hshape : Shape.of word.value = _ := hdescribe ▸ shape_long hlong
      refine ⟨⟨name.value, [], [occurrence.rereadFrom word], ⟨none, none⟩⟩, _, ?_,
        rfl, rfl, rfl, rfl, rfl, rfl⟩
      rw [parseTokens_long hname hword hshape,
        longOption_describe hspelled hlong hnamed word rfl]
      rfl
  | false =>
      obtain ⟨c, hletter, hequals⟩ := hspelled.short hlong
      have hdash : c ≠ '-' := by
        rintro rfl
        exact hclear (.dash hlong hletter)
      have hplain : occurrence.hasValue = false → c ≠ '.' ∧
          Text.isDigit c = false := by
        intro hvalue
        refine ⟨fun hpoint => ?_, Bool.eq_false_iff.mpr fun hdigit => ?_⟩
        · exact hclear (.numeral hlong hvalue hletter (.inl hpoint))
        · exact hclear (.numeral hlong hvalue hletter (.inr hdigit))
      have hshape : Shape.of word.value = _ :=
        hdescribe ▸ shape_short hlong hletter hdash hplain
      refine ⟨⟨name.value, [], [occurrence.rereadFrom word], ⟨none, none⟩⟩, _, ?_,
        rfl, rfl, rfl, rfl, rfl, rfl⟩
      rw [parseTokens_short hname hword hshape,
        shortOptions_describe hspelled hlong hletter hequals word rfl]
      rfl

private theorem shape_of_dash (hshort : occurrence.isLong = false)
    (hdash : occurrence.name = "-") :
    Shape.of occurrence.describe = .long (valueChars occurrence) := by
  apply shape_of_dashes
  rw [toList_describe, hshort, hdash]
  rfl

theorem shape_of_numeral {c : Char} (hnumeral : c = '.' ∨ Text.isDigit c = true) :
    Shape.of ("-" ++ shortName c) = .argument := by
  have hchars : ("-" ++ shortName c).toList = ['-', c] := by
    simp [shortName]
  have hnumber : isNumber ("-" ++ shortName c) = true := by
    have hpart : isNumeral c = true := by
      rw [isNumeral, Bool.or_eq_true, decide_eq_true_eq]
      exact hnumeral.symm
    rw [isNumber, hchars, isNumberChars]
    simp [hpart]
  have hdash : c ≠ '-' := by
    rintro rfl
    revert hnumeral
    decide
  unfold Shape.of
  rw [hchars, hnumber]
  split
  · next heq => exact absurd (List.cons.inj (List.cons.inj heq).2).1 hdash
  · simp
  · rfl

private theorem not_rereadBy_of_ambiguous (hambiguous : Ambiguous occurrence)
    (hname : name.kind = .word) (hword : word.kind = .word)
    (hdescribe : word.value = occurrence.describe) :
    ¬RereadBy [name, word] occurrence := by
  rintro ⟨invocation, again, hparse, -, hoptions, -, hlong, -, -⟩
  cases hambiguous with
  | nameless hislong hempty hvalue =>
      have hshape : Shape.of word.value = _ := hdescribe ▸ shape_long hislong
      rw [hempty, valueChars_of_value hvalue] at hshape
      rw [parseTokens_long hname hword hshape] at hparse
      cases hparse
  | dash hshort hdash =>
      have hshape : Shape.of word.value = _ := hdescribe ▸ shape_of_dash hshort hdash
      rw [parseTokens_long hname hword hshape] at hparse
      cases hvalue : occurrence.hasValue with
      | true =>
          rw [valueChars_of_value hvalue] at hparse
          cases hparse
      | false =>
          rw [valueChars_of_plain hvalue] at hparse
          cases hparse
          cases hoptions
          rw [hshort] at hlong
          cases hlong
  | @numeral c hshort hvalue hletter hnumeral =>
      have hshape : Shape.of word.value = .argument := by
        rw [hdescribe, Occurrence.describe, hvalue, if_neg Bool.false_ne_true,
          Occurrence.display, hshort, if_neg Bool.false_ne_true, hletter]
        exact shape_of_numeral hnumeral
      rw [parseTokens_argument hname hword hshape] at hparse
      cases hparse
      cases hoptions

/-- An option of a line is read back from its own word exactly if nothing else looks
like it. -/
theorem rereadBy_iff {text : String} {pipeline : Pipeline} {invocation : Invocation}
    (hparse : parse text = .ok (some pipeline)) (hinvocation : invocation ∈ pipeline)
    (hoccurrence : occurrence ∈ invocation.options) (hname : name.kind = .word)
    (hword : word.kind = .word) (hdescribe : word.value = occurrence.describe) :
    RereadBy [name, word] occurrence ↔ ¬Ambiguous occurrence := by
  have hspelled := spelled_of_parse hparse invocation hinvocation occurrence
    hoccurrence
  constructor
  · intro hreread hambiguous
    exact not_rereadBy_of_ambiguous hambiguous hname hword hdescribe hreread
  · intro hclear
    exact rereadBy_of_not_ambiguous hspelled hclear hname hword hdescribe

/-! A cluster that ends in a digit with a value, and two quoted dashes that take a
word. -/

def clusterLine : String := "cmd -a-1=x \"--\" y"

def digitOption : Occurrence := ⟨"1", false, some "x", true, false, false, 0⟩

def namelessOption : Occurrence := ⟨"", true, some "y", true, false, true, 0⟩

def clusterInvocation : Invocation :=
  { name := "cmd"
    arguments := []
    options := [.plain "a" false 0, .plain "-" false 0, digitOption, namelessOption]
    redirections := ⟨none, none⟩ }

theorem rereadBy_iff_clusterLine :
    parse clusterLine = .ok (some [clusterInvocation]) ∧
      (∀ occurrence ∈ clusterInvocation.options,
        RereadBy [plainWord "cmd", plainWord occurrence.describe] occurrence ↔
          ¬Ambiguous occurrence) ∧
      RereadBy [plainWord "cmd", plainWord digitOption.describe] digitOption ∧
      ¬RereadBy [plainWord "cmd", plainWord namelessOption.describe]
        namelessOption := by
  have hparse : parse clusterLine = .ok (some [clusterInvocation]) := by
    decide +kernel
  have hiff : ∀ occurrence ∈ clusterInvocation.options,
      RereadBy [plainWord "cmd", plainWord occurrence.describe] occurrence ↔
        ¬Ambiguous occurrence := fun occurrence hoccurrence =>
    rereadBy_iff hparse List.mem_cons_self hoccurrence rfl rfl rfl
  have hdigit : ¬Ambiguous digitOption := by
    intro hambiguous
    cases hambiguous with
    | nameless hlong => cases hlong
    | dash _ hname => exact absurd hname (by decide)
    | numeral _ hvalue => cases hvalue
  refine ⟨hparse, hiff, (hiff digitOption (by decide)).mpr hdigit, fun hreread => ?_⟩
  exact (hiff namelessOption (by decide)).mp hreread (.nameless rfl rfl rfl)

end PipeShell.Pipeline
