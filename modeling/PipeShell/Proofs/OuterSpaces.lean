import PipeShell.Proofs.Basic
import PipeShell.Proofs.Lines
import PipeShell.Proofs.TokenLayout

namespace PipeShell

namespace Token

def placeless (token : Token) : Token :=
  { token with span := ⟨0, 0⟩ }

def Draft.placeless (draft : Draft) : Draft :=
  { draft with start := 0 }

private theorem placeless_token (draft : Draft) (stop : Nat) :
    (draft.token stop).placeless = draft.placeless.token 0 := by
  unfold Draft.token Draft.placeless
  dsimp only
  by_cases hdashes : (decide (String.ofList draft.chars.reverse = "--") &&
    !draft.quoted) = true
  · rw [if_pos hdashes, if_pos hdashes]
    rfl
  · rw [if_neg hdashes, if_neg hdashes]
    rfl

private theorem placeless_closing (word : Option Draft) (position : Nat) :
    (closing word position).map placeless =
      closing (word.map Draft.placeless) 0 := by
  cases word with
  | none => rfl
  | some draft => exact congrArg ([·]) (placeless_token draft position)

private theorem placeless_draftAt (word : Option Draft) (position : Nat) :
    (draftAt word position).placeless = draftAt (word.map Draft.placeless) 0 := by
  cases word <;> rfl

/-- What becomes of a line when a number of spaces is taken from its end, and others
from its start. -/
inductive Trimmed (count : Nat) :
    Except ParseError (List Token) → Except ParseError (List Token) → Prop
  | escaped (hspaces : 0 < count) (position : Nat)
      (result : Except ParseError (List Token)) :
      Trimmed count (.error (.escapeAtEnd position)) result
  | refused (error error' : ParseError) :
  Trimmed count (.error error) (.error error')
  | read {tokens tokens' : List Token}
      (hsame : tokens.map placeless = tokens'.map placeless) :
      Trimmed count (.ok tokens) (.ok tokens')

theorem Trimmed.emit {count : Nat} {result result' : Except ParseError (List Token)}
    (htrimmed : Trimmed count result result') {tokens tokens' : List Token}
    (hsame : tokens.map placeless = tokens'.map placeless) :
    Trimmed count (Token.emit tokens result) (Token.emit tokens' result') := by
  cases htrimmed with
  | escaped hspaces position result => exact .escaped hspaces position _
  | refused error error' => exact .refused error error'
  | read hrest =>
      apply Trimmed.read
      rw [List.map_append, List.map_append, hsame, hrest]

private theorem plain_replicate (word : Option Draft) (position count : Nat) :
    plain word position (List.replicate count ' ') =
      .ok (closing word position) := by
  cases count with
  | zero => rfl
  | succ count =>
      have hspaces := plain_spaces (position + 1) count []
      rw [List.append_nil] at hspaces
      rw [List.replicate_succ, plain_space, hspaces]
      exact congrArg Except.ok (List.append_nil _)

private theorem doubleQuoted_replicate (draft : Draft)
    (opened position count : Nat) :
    doubleQuoted draft opened position (List.replicate count ' ') =
      .error (.unclosedDouble opened) := by
  induction count generalizing draft position with
  | zero => rfl
  | succ count ih => exact ih (draft.push ' ') (position + 1)

private theorem singleQuoted_replicate (draft : Draft)
    (opened position count : Nat) :
    singleQuoted draft opened position (List.replicate count ' ') =
      .error (.unclosedSingle opened) := by
  induction count generalizing draft position with
  | zero => rfl
  | succ count ih => exact ih (draft.push ' ') (position + 1)

/-- Spaces after these characters make no difference, however the line has been read
so far. -/
structure Trims (count : Nat) (chars : List Char) : Prop where
  plain : ∀ word word' position position',
    word.map Draft.placeless = word'.map Draft.placeless →
      Trimmed count (plain word position chars)
        (plain word' position' (chars ++ List.replicate count ' '))
  doubleQuoted : ∀ draft draft' opened opened' position position',
    draft.placeless = draft'.placeless →
      Trimmed count (doubleQuoted draft opened position chars)
        (doubleQuoted draft' opened' position' (chars ++ List.replicate count ' '))
  singleQuoted : ∀ draft draft' opened opened' position position',
    draft.placeless = draft'.placeless →
      Trimmed count (singleQuoted draft opened position chars)
        (singleQuoted draft' opened' position' (chars ++ List.replicate count ' '))

variable {count : Nat} {c : Char} {rest : List Char}

section Words

variable {draft draft' : Draft} {word word' : Option Draft}

theorem placeless_push (hdraft : draft.placeless = draft'.placeless) (c : Char) :
    (draft.push c).placeless = (draft'.push c).placeless :=
  congrArg (Draft.push · c) hdraft

private theorem placeless_quote (hdraft : draft.placeless = draft'.placeless) :
    draft.quote.placeless = draft'.quote.placeless :=
  congrArg Draft.quote hdraft

theorem placeless_some (hdraft : draft.placeless = draft'.placeless) :
    (some draft).map Draft.placeless = (some draft').map Draft.placeless :=
  congrArg some hdraft

theorem placeless_draftAt_congr
    (hword : word.map Draft.placeless = word'.map Draft.placeless)
    (position position' : Nat) :
    (draftAt word position).placeless = (draftAt word' position').placeless := by
  rw [placeless_draftAt, placeless_draftAt, hword]

theorem placeless_closing_congr
    (hword : word.map Draft.placeless = word'.map Draft.placeless)
    (position position' : Nat) :
    (closing word position).map placeless = (closing word' position').map
      placeless := by
  rw [placeless_closing, placeless_closing, hword]

theorem placeless_operator
    (hword : word.map Draft.placeless = word'.map Draft.placeless) (kind : Kind)
    (value : String) (position position' : Nat) :
    (closing word position ++ [operator kind value position]).map placeless =
      (closing word' position' ++ [operator kind value position']).map
        placeless := by
  rw [List.map_append, List.map_append,
    placeless_closing_congr hword position position']
  rfl

end Words

theorem trims_nil (count : Nat) : Trims count [] where
  plain word word' position position' hword := by
    rw [List.nil_append, plain_replicate]
    exact .read (placeless_closing_congr hword position position')
  doubleQuoted draft draft' opened opened' position position' hdraft := by
    rw [List.nil_append, doubleQuoted_replicate]
    exact .refused _ _
  singleQuoted draft draft' opened opened' position position' hdraft := by
    rw [List.nil_append, singleQuoted_replicate]
    exact .refused _ _

theorem trimmed_plain_cons (htrims : Trims count rest) (hslash : c ≠ '\\')
    (hsingle : c = '>' → rest.head? ≠ some '>') {word word' : Option Draft}
    (hword : word.map Draft.placeless = word'.map Draft.placeless)
    (position position' : Nat) : Trimmed count (plain word position (c :: rest))
      (plain word' position' (c :: rest ++ List.replicate count ' ')) := by
  have hlater : c = '>' → (rest ++ List.replicate count ' ').head? ≠ some '>' := by
    intro hc
    cases rest with
    | nil => cases count <;> simp [List.replicate_succ]
    | cons next rest => exact hsingle hc
  have hnone := htrims.plain none none (position + 1) (position' + 1) rfl
  have hquote := placeless_quote (placeless_draftAt_congr hword position position')
  rw [List.cons_append, plain_cons word position hslash hsingle,
    plain_cons word' position' hslash hlater]
  split
  · exact hnone.emit (placeless_closing_congr hword position position')
  · split
    · exact hnone.emit (placeless_operator hword .pipe "|" position position')
    · split
      · exact hnone.emit (placeless_operator hword .redirectIn "<"
          position position')
      · split
        · exact hnone.emit (placeless_operator hword .redirectOut ">"
            position position')
        · split
          · exact htrims.doubleQuoted _ _ _ _ _ _ hquote
          · split
            · exact htrims.singleQuoted _ _ _ _ _ _ hquote
            · exact htrims.plain _ _ _ _ (placeless_some (placeless_push
                (placeless_draftAt_congr hword position position') c))

theorem trimmed_doubleQuoted_cons (htrims : Trims count rest)
    (hplain : c = '\\' → rest.head? ≠ some '"' ∧ rest.head? ≠ some '\\')
    {draft draft' : Draft} (hdraft : draft.placeless = draft'.placeless)
    (opened opened' position position' : Nat) :
    Trimmed count (doubleQuoted draft opened position (c :: rest))
      (doubleQuoted draft' opened' position'
        (c :: rest ++ List.replicate count ' ')) := by
  -- Inside quotes, too, a space after a backslash does not turn it into an escape.
  have hlater : c = '\\' → (rest ++ List.replicate count ' ').head? ≠ some '"' ∧
      (rest ++ List.replicate count ' ').head? ≠ some '\\' := by
    intro hc
    cases rest with
    | nil => cases count <;> simp [List.replicate_succ]
    | cons next rest => exact hplain hc
  rw [List.cons_append, doubleQuoted_cons draft opened position hplain,
    doubleQuoted_cons draft' opened' position' hlater]
  split
  · exact htrims.plain _ _ _ _ (placeless_some hdraft)
  · exact htrims.doubleQuoted _ _ _ _ _ _ (placeless_push hdraft c)

theorem trimmed_singleQuoted_cons (htrims : Trims count rest) {draft draft' : Draft}
    (hdraft : draft.placeless = draft'.placeless)
    (opened opened' position position' : Nat) :
    Trimmed count (singleQuoted draft opened position (c :: rest))
      (singleQuoted draft' opened' position'
        (c :: rest ++ List.replicate count ' ')) := by
  rw [List.cons_append, singleQuoted, singleQuoted]
  split
  · exact htrims.plain _ _ _ _ (placeless_some hdraft)
  · exact htrims.singleQuoted _ _ _ _ _ _ (placeless_push hdraft c)

private theorem trims_singleton (count : Nat) (c : Char) : Trims count [c] where
  plain word word' position position' hword := by
    by_cases hslash : c = '\\'
    · subst hslash
      cases count with
      | zero => exact .refused _ _
      | succ count => exact .escaped count.succ_pos position _
    · exact trimmed_plain_cons (trims_nil count) hslash (fun _ => nofun) hword
        position position'
  doubleQuoted _ _ _ _ _ _ hdraft :=
    trimmed_doubleQuoted_cons (trims_nil count) (fun _ => ⟨nofun, nofun⟩)
      hdraft _ _ _ _
  singleQuoted _ _ _ _ _ _ hdraft :=
    trimmed_singleQuoted_cons (trims_nil count) hdraft _ _ _ _

theorem trims_cons_cons {next : Char} (hnext : Trims count (next :: rest))
    (hrest : Trims count rest) :
    Trims count (c :: next :: rest) where
  plain word word' position position' hword := by
    by_cases hslash : c = '\\'
    · subst hslash
      rw [List.cons_append, List.cons_append, plain_backslash, plain_backslash]
      exact hrest.plain _ _ _ _ (placeless_some
        (placeless_push (placeless_draftAt_congr hword position position') next))
    · by_cases hdouble : c = '>' ∧ next = '>'
      · obtain ⟨rfl, rfl⟩ := hdouble
        rw [List.cons_append, List.cons_append, plain_redirectAppend,
          plain_redirectAppend]
        exact (hrest.plain none none _ _ rfl).emit
          (placeless_operator hword .redirectAppend ">>" position position')
      · refine trimmed_plain_cons hnext hslash ?_ hword position position'
        intro hc hhead
        exact hdouble ⟨hc, Option.some.inj hhead⟩
  doubleQuoted draft draft' opened opened' position position' hdraft := by
    by_cases hescape : c = '\\' ∧ (next = '"' ∨ next = '\\')
    · obtain ⟨rfl, hnextchar⟩ := hescape
      rcases hnextchar with rfl | rfl
      · exact hrest.doubleQuoted _ _ _ _ _ _ (placeless_push hdraft '"')
      · exact hrest.doubleQuoted _ _ _ _ _ _ (placeless_push hdraft '\\')
    · refine trimmed_doubleQuoted_cons hnext ?_ hdraft _ _ _ _
      intro hc
      refine ⟨fun hhead => hescape ⟨hc, .inl ?_⟩, fun hhead => hescape ⟨hc, .inr ?_⟩⟩
      · exact Option.some.inj hhead
      · exact Option.some.inj hhead
  singleQuoted _ _ _ _ _ _ hdraft := trimmed_singleQuoted_cons hnext hdraft _ _ _ _

private theorem trims (count : Nat) : (chars : List Char) → Trims count chars
  | [] => trims_nil count
  | [c] => trims_singleton count c
  | _ :: next :: rest =>
      trims_cons_cons (trims count (next :: rest)) (trims count rest)

end Token

namespace Pipeline

theorem valueFrom_placeless (next : Option Token) :
    valueFrom (next.map Token.placeless) = (valueFrom next).map Token.placeless := by
  cases next with
  | none => rfl
  | some token =>
      have hsame : isOptionValue token.placeless = isOptionValue token := rfl
      cases hvalue : isOptionValue token <;>
        simp only [valueFrom, Option.map_some, Option.filter, hsame, hvalue] <;> rfl

private theorem longOption_placeless (token : Token) (body : List Char)
    (next : Option Token) (index : Nat) :
    (longOption token.placeless body (next.map Token.placeless) index).toOption =
      (longOption token body next index).toOption := by
  unfold longOption
  rw [valueFrom_placeless]
  split
  · rfl
  · rfl
  · cases valueFrom next <;> rfl

private theorem shortOptions_placeless (token : Token) (body : List Char)
    (next : Option Token) (index : Nat) :
    (shortOptions token.placeless body (next.map Token.placeless) index).toOption =
      (shortOptions token body next index).toOption := by
  unfold shortOptions
  rw [valueFrom_placeless]
  split
  · rfl
  · rfl
  · cases valueFrom next <;> rfl
  · rfl

private theorem Draft.addWord_placeless (draft : Draft) (token : Token)
    (next : Option Token) :
    (draft.addWord token.placeless (next.map Token.placeless)).toOption =
      (draft.addWord token next).toOption := by
  unfold Draft.addWord
  split
  · rfl
  · split
    · rfl
    · have hvalue : token.placeless.value = token.value := rfl
      rw [hvalue]
      split
      · rfl
      · rw [toOption_map, toOption_map, longOption_placeless]
      · rw [toOption_map, toOption_map, shortOptions_placeless]

private theorem Draft.scan_placeless : (tokens : List Token) → (draft : Draft) →
    (draft.scan (tokens.map Token.placeless)).toOption = (draft.scan tokens).toOption
  | [], _ => rfl
  | token :: rest, draft => by
      have hkind : token.placeless.kind = token.kind := rfl
      rw [List.map_cons, Draft.scan.eq_def, Draft.scan.eq_def draft]
      simp only [hkind]
      cases token.kind with
      | pipe => exact Draft.scan_placeless rest draft
      | endOfOptions => exact Draft.scan_placeless rest draft.endOptions
      | word =>
          cases rest with
          | nil =>
              simp only [List.map_nil, toOption_map]
              rw [← Draft.addWord_placeless draft token none]
              rfl
          | cons next after =>
              have hword := Draft.addWord_placeless draft token (some next)
              simp only [List.map_cons, Option.map_some] at hword ⊢
              obtain ⟨_, _, hleft, hright⟩ | ⟨⟨found, taken⟩, hleft, hright⟩ :=
                toOption_cases hword
              · rw [hleft, hright]
                rfl
              · rw [hleft, hright]
                cases taken with
                | true => exact Draft.scan_placeless after found
                | false => exact Draft.scan_placeless (next :: after) found
      | redirectIn | redirectOut | redirectAppend =>
          cases rest with
          | nil => rfl
          | cons path after =>
              have hpath : path.placeless.kind = path.kind := rfl
              simp only [List.map_cons, hpath]
              split
              · exact Draft.scan_placeless after _
              · rfl

theorem parseInvocation_placeless (tokens : List Token) :
    (parseInvocation (tokens.map Token.placeless)).toOption =
    (parseInvocation tokens).toOption := by
  unfold parseInvocation
  obtain ⟨_, _, hleft, hright⟩ | ⟨draft, hleft, hright⟩ :=
    toOption_cases (Draft.scan_placeless tokens .empty)
  · rw [hleft, hright]
    rfl
  · rw [hleft, hright]

def Segment.placeless (segment : Segment) : Segment :=
  ⟨segment.tokens.map Token.placeless, 0⟩

private theorem segments_placeless (tokens : List Token) :
    segments (tokens.map Token.placeless) =
      ((segments tokens).1.map Segment.placeless,
        (segments tokens).2.map Token.placeless) := by
  induction tokens with
  | nil => rfl
  | cons token rest ih =>
      have hkind : token.placeless.kind = token.kind := rfl
      rw [List.map_cons, segments, segments, ih]
      simp only [hkind]
      split
      · rfl
      · cases (segments rest).1 <;> rfl

private theorem endsInRedirection_placeless (tokens : List Token) :
    endsInRedirection (tokens.map Token.placeless) = endsInRedirection tokens := by
  have hfilter : ((tokens.map Token.placeless).filter fun token =>
      token.kind ≠ .redirectIn) =
        (tokens.filter fun token => token.kind ≠ .redirectIn).map Token.placeless :=
        List.filter_map
  rw [endsInRedirection, endsInRedirection, hfilter, List.getLast?_map]
  cases (tokens.filter fun token => token.kind ≠ .redirectIn).getLast? <;> rfl

private theorem parseSegment_placeless (segment : Segment) :
    (parseSegment segment.placeless).toOption = (parseSegment segment).toOption := by
  unfold parseSegment Segment.placeless
  simp only [endsInRedirection_placeless, List.isEmpty_map]
  split
  · rfl
  · split
    · rfl
    · obtain ⟨_, _, hleft, hright⟩ | ⟨invocation, hleft, hright⟩ :=
        toOption_cases (parseInvocation_placeless segment.tokens)
      · rw [hleft, hright]
        rfl
      · rw [hleft, hright]
        dsimp only
        split <;> rfl

private theorem parseSegments_placeless (closed : List Segment) :
    (parseSegments (closed.map Segment.placeless)).toOption =
    (parseSegments closed).toOption := by
  induction closed with
  | nil => rfl
  | cons segment rest ih =>
      rw [List.map_cons, parseSegments, parseSegments]
      obtain ⟨_, _, hleft, hright⟩ | ⟨invocation, hleft, hright⟩ :=
        toOption_cases (parseSegment_placeless segment)
      · rw [hleft, hright]
        rfl
      · rw [hleft, hright]
        simp only [toOption_map, ih]

/-- The parser does not look where tokens stand. -/
theorem parseTokens_placeless (tokens : List Token) :
    (parseTokens (tokens.map Token.placeless)).toOption =
    (parseTokens tokens).toOption := by
  unfold parseTokens
  rw [List.isEmpty_map, segments_placeless]
  split
  · rfl
  · simp only [List.isEmpty_map]
    obtain ⟨_, _, hleft, hright⟩ | ⟨invocations, hleft, hright⟩ :=
      toOption_cases (parseSegments_placeless (segments tokens).1)
    · rw [hleft, hright]
      rfl
    · rw [hleft, hright]
      dsimp only
      split
      · rfl
      · rw [toOption_map, toOption_map, parseInvocation_placeless]

private theorem parseTokens_congr {tokens tokens' : List Token}
    (hsame : tokens.map Token.placeless = tokens'.map Token.placeless) :
    (parseTokens tokens).toOption = (parseTokens tokens').toOption := by
  rw [← parseTokens_placeless tokens, hsame, parseTokens_placeless]

end Pipeline

namespace Text

def SpacesOnly (text : String) : Prop :=
  ∀ c ∈ text.toList, isBlank c = true → c = ' '

instance (text : String) : Decidable (SpacesOnly text) :=
  List.decidableBAll _ text.toList

private theorem takeWhile_eq_replicate {chars : List Char}
    (hspaces : ∀ c ∈ chars, isBlank c = true → c = ' ') :
    chars.takeWhile isBlank = List.replicate (chars.takeWhile isBlank).length
      ' ' := by
  apply List.eq_replicate_of_mem
  intro c hc
  exact hspaces c ((List.takeWhile_prefix _).subset hc)
    (List.all_eq_true.mp List.all_takeWhile c hc)

theorem toList_strip (text : String) :
    (strip text).toList = stripChars text.toList := by
  rw [strip, String.toList_ofList]

theorem exists_spaces_strip {text : String} (hspaces : SpacesOnly text) :
    ∃ before after, text.toList =
      List.replicate before ' ' ++
        ((strip text).toList ++ List.replicate after ' ') := by
  have hfront := List.takeWhile_append_dropWhile (p := isBlank) (l := text.toList)
  have hkept : ∀ c ∈ (text.toList.dropWhile isBlank).reverse, isBlank c = true →
      c = ' ' := by
    intro c hc
    exact hspaces c ((List.dropWhile_suffix _).subset (List.mem_reverse.mp hc))
  have hback := List.takeWhile_append_dropWhile (p := isBlank)
    (l := (text.toList.dropWhile isBlank).reverse)
  have hend : text.toList.dropWhile isBlank = (strip text).toList ++
      ((text.toList.dropWhile isBlank).reverse.takeWhile isBlank).reverse := by
    rw [toList_strip, stripChars, ← List.reverse_append, hback, List.reverse_reverse]
  rw [takeWhile_eq_replicate hkept, List.reverse_replicate] at hend
  rw [takeWhile_eq_replicate hspaces, hend] at hfront
  exact ⟨_, _, hfront.symm⟩

theorem spacesOnly_strip {text : String} (hspaces : SpacesOnly text) :
    SpacesOnly (strip text) := by
  obtain ⟨before, after, htext⟩ := exists_spaces_strip hspaces
  intro c hc
  apply hspaces
  rw [htext]
  exact List.mem_append_right _ (List.mem_append_left _ hc)

end Text

namespace Token

private theorem tokenize_of_spacesOnly {text : String}
    (hspaces : Text.SpacesOnly text) :
    tokenize text = plain none 0 text.toList := by
  apply tokenizeChars_of_tabFree
  intro htab
  exact absurd (hspaces _ htab (by decide)) (by decide)

/-- The text ends in a space that is escaped: without the spaces around the text, its
last backslash has nothing to escape. -/
def endsEscaped (text : String) : Bool :=
  text.toList.getLast? = some ' ' &&
    match tokenize (Text.strip text) with
    | .error (.escapeAtEnd _) => true
    | _ => false

private theorem trimmed_strip {text : String} (hspaces : Text.SpacesOnly text) :
    ∃ count, Trimmed count (tokenize (Text.strip text)) (tokenize text) ∧
      (0 < count → text.toList.getLast? = some ' ') := by
  obtain ⟨before, after, htext⟩ := Text.exists_spaces_strip hspaces
  refine ⟨after, ?_, ?_⟩
  · rw [tokenize_of_spacesOnly hspaces,
      tokenize_of_spacesOnly (Text.spacesOnly_strip hspaces), htext, plain_spaces]
    exact (trims after _).plain none none _ _ rfl
  · intro hafter
    obtain ⟨count, rfl⟩ := Nat.exists_eq_succ_of_ne_zero hafter.ne'
    rw [htext, List.replicate_succ', ← List.append_assoc, ← List.append_assoc,
      List.getLast?_append, List.getLast?_singleton, Option.some_or]

end Token

namespace Execution

theorem parse_of_endsEscaped {text : String}
    (hescaped : Token.endsEscaped text = true) :
    ∃ position, Pipeline.parse (Text.strip text) =
      .error (.escapeAtEnd position) := by
  unfold Token.endsEscaped at hescaped
  have hstripped := (Bool.and_eq_true_iff.mp hescaped).2
  split at hstripped
  · next position htokens =>
      refine ⟨position, ?_⟩
      rw [Pipeline.parse, htokens]
  · cases hstripped

/-- A line without the spaces around it is read like the line itself, unless the last
of them is escaped. -/
theorem parse_strip {text : String} (hspaces : Text.SpacesOnly text)
    (hsome : Text.strip text ≠ "") (hplain : Token.endsEscaped text = false) :
    (∃ error error', Pipeline.parse (Text.strip text) = .error error ∧
        Pipeline.parse text = .error error') ∨
      ∃ found, Pipeline.parse (Text.strip text) = .ok found ∧
        Pipeline.parse text = .ok found ∧
        readingNotes (Text.strip text) = readingNotes text := by
  have hwhole : text ≠ "" := by
    rintro rfl
    exact hsome rfl
  obtain ⟨count, htrimmed, hlast⟩ := Token.trimmed_strip hspaces
  unfold Token.endsEscaped at hplain
  unfold Pipeline.parse readingNotes
  rw [if_neg hsome, if_neg hwhole]
  generalize Token.tokenize (Text.strip text) = stripped at htrimmed hplain
  generalize Token.tokenize text = whole at htrimmed
  cases htrimmed with
  | escaped hcount position result => simp [hlast hcount] at hplain
  | refused error error' => exact .inl ⟨error, error', rfl, rfl⟩
  | read hsame =>
      rename_i tokens tokens'
      have hlength : tokens.length = tokens'.length := by
        simpa using congrArg List.length hsame
      have hnote : tokenizedNote tokens = tokenizedNote tokens' := by
        rw [tokenizedNote, tokenizedNote, hlength]
      obtain ⟨error, error', hleft, hright⟩ | ⟨found, hleft, hright⟩ :=
        toOption_cases (Pipeline.parseTokens_congr hsame)
      · exact .inl ⟨error, error', hleft, hright⟩
      · refine .inr ⟨found, hleft, hright, ?_⟩
        simp only [hleft, hright, hnote]

end Execution

end PipeShell
