import PipeShell.Completion
import PipeShell.Proofs.Grammar
import PipeShell.Proofs.TextPieces
import PipeShell.Proofs.TokenLayout

namespace PipeShell

namespace Pipeline

theorem segments_concat (tokens : List Token) (token : Token) :
    segments (tokens ++ [token]) =
      if token.kind = .pipe then
        ((segments tokens).1 ++ [⟨(segments tokens).2, token.span.start⟩], [])
      else ((segments tokens).1, (segments tokens).2 ++ [token]) := by
  induction tokens with
  | nil => by_cases hpipe : token.kind = .pipe <;> simp [segments, hpipe]
  | cons first rest ih =>
      rw [List.cons_append, segments, ih, segments]
      by_cases hpipe : token.kind = .pipe <;> by_cases hfirst :
        first.kind = .pipe <;>
        cases hclosed : (segments rest).1 <;> simp [hpipe, hfirst, hclosed]

theorem segments_snd_eq_nil {tokens : List Token} :
    (segments tokens).2 = [] ↔
      tokens = [] ∨ ∃ token, tokens.getLast? = some token ∧ token.kind = .pipe := by
  cases tokens using List.reverseRecOn with
  | nil => simp [segments]
  | append_singleton tokens token =>
      rw [segments_concat]
      by_cases hpipe : token.kind = .pipe <;> simp [hpipe]

private theorem segments_snd_subset (tokens : List Token) :
    (segments tokens).2 ⊆ tokens := by
  induction tokens using List.reverseRecOn with
  | nil => exact List.Subset.refl _
  | append_singleton tokens token ih =>
      rw [segments_concat]
      split
      · exact List.nil_subset _
      · exact List.append_subset.mpr
          ⟨fun other hother => List.mem_append_left _ (ih hother),
            List.subset_append_right _ _⟩

theorem name_of_parseInvocation {first : Token} {rest : List Token}
    {invocation : Invocation} (hfirst : first.kind = .word)
    (hparse : parseInvocation (first :: rest) = .ok invocation) :
    invocation.name = first.value := by
  have hreads := parseInvocation_reads (first :: rest)
  rw [hparse] at hreads
  obtain ⟨before, token, after, hsplit, -, hearlier, hvalue⟩ := hreads.2.name
  cases before with
  | nil =>
      cases hsplit
      exact hvalue.symm
  | cons earlier before =>
      -- The first word would be a name already.
      cases hsplit
      exact absurd ⟨[], first, before, rfl, hfirst, not_afterRedirection_nil⟩
        hearlier

end Pipeline

namespace Completion

open Token (Kind Item Operator)

/-- An operator, or a word that is written as it is. -/
def Simple (piece : List Char) : Prop :=
  String.ofList piece ∈ "|" :: redirectionSymbols ∨
    ∀ c ∈ piece, Text.isBlank c = false ∧ c ∉ Token.marks

instance (piece : List Char) : Decidable (Simple piece) :=
  @instDecidableOr _ _ _ (List.decidableBAll _ piece)

def Spaced (text : List Char) : Prop :=
  ∀ piece ∈ Text.splitChars ' ' text, Simple piece

instance (text : List Char) : Decidable (Spaced text) :=
  inferInstanceAs (Decidable (∀ piece ∈ _, Simple piece))

def kindOf (word : String) : Kind :=
  if word = "|" then .pipe
  else if word = "<" then .redirectIn
  else if word = ">" then .redirectOut
  else if word = ">>" then .redirectAppend
  else if word = "--" then .endOfOptions
  else .word

theorem exists_operator {piece : List Char}
    (hoperator : String.ofList piece ∈ "|" :: redirectionSymbols) :
    ∃ symbol : Operator, symbol.text.toList = piece ∧
      symbol.kind = kindOf symbol.text := by
  have hpiece : piece = (String.ofList piece).toList := String.toList_ofList.symm
  rw [hpiece]
  simp only [redirectionSymbols, List.mem_cons, List.not_mem_nil,
    or_false] at hoperator
  rcases hoperator with h | h | h | h
  · exact ⟨.pipe, by rw [h]; rfl, rfl⟩
  · exact ⟨.redirectIn, by rw [h]; rfl, rfl⟩
  · exact ⟨.redirectOut, by rw [h]; rfl, rfl⟩
  · exact ⟨.redirectAppend, by rw [h]; rfl, rfl⟩

private theorem kindOf_of_bare {piece : List Char}
    (hbare : ∀ c ∈ piece, c ∉ Token.marks) :
    kindOf (String.ofList piece) =
      if String.ofList piece = "--" then .endOfOptions else .word := by
  have hother : ∀ symbol ∈ ["|", "<", ">", ">>"], String.ofList piece ≠ symbol := by
    intro symbol hsymbol heq
    have hchars : symbol.toList = piece := by rw [← heq, String.toList_ofList]
    simp only [List.mem_cons, List.not_mem_nil, or_false] at hsymbol
    rcases hsymbol with rfl | rfl | rfl | rfl
    · exact hbare '|' (hchars ▸ by decide) (by decide)
    · exact hbare '<' (hchars ▸ by decide) (by decide)
    · exact hbare '>' (hchars ▸ by decide) (by decide)
    · exact hbare '>' (hchars ▸ by decide) (by decide)
  simp only [List.forall_mem_cons] at hother
  obtain ⟨hpipe, hin, hout, happend, -⟩ := hother
  rw [kindOf, if_neg hpipe, if_neg hin, if_neg hout, if_neg happend]

def bareChars (piece : List Char) (hbare : ∀ c ∈ piece, c ∉ Token.marks) :
    List Token.BareChar :=
  piece.attach.map fun c => ⟨c.1, false, fun hmark => absurd hmark (hbare c.1 c.2)⟩

private theorem exists_item {piece : List Char} (hsimple : Simple piece)
    (hsome : piece ≠ []) :
    ∃ item : Item, item.text = piece ∧ ∀ position,
      (item.token position).kind = kindOf (String.ofList piece) ∧
        (item.token position).value = String.ofList piece := by
  rcases hsimple with hoperator | hbare
  · obtain ⟨symbol, htext, hkind⟩ := exists_operator hoperator
    subst htext
    exact ⟨.operator symbol, rfl,
      fun _ => by simp [Item.token, Token.operator, hkind]⟩
  · have hmarks : ∀ c ∈ piece, c ∉ Token.marks := fun c hc => (hbare c hc).2
    have hchars : (bareChars piece hmarks).map Token.BareChar.char = piece := by
      simp [bareChars]
    have hnonempty : bareChars piece hmarks ≠ [] := by
      simpa [bareChars] using hsome
    have htext : (bareChars piece hmarks).flatMap Token.BareChar.text = piece := by
      simp [bareChars, List.flatMap_map, Token.BareChar.text]
    refine ⟨.word ⟨[.bare (bareChars piece hmarks) hnonempty], List.cons_ne_nil _ _⟩,
      ?_, ?_⟩
    · simp [Item.text, Token.Word.text, Token.Segment.text, htext]
    · intro position
      simp [Item.token, Token.Word.value, Token.Word.quoted, Token.Segment.chars,
        Token.Segment.isQuoted, hchars, kindOf_of_bare hmarks]

theorem isBlank_of_simple {piece : List Char} (hsimple : Simple piece) :
    ∀ c ∈ piece, Text.isBlank c = false := by
  rcases hsimple with hoperator | hbare
  · obtain ⟨symbol, rfl, -⟩ := exists_operator hoperator
    cases symbol <;> simp [Operator.text, Text.isBlank]
  · exact fun c hc => (hbare c hc).1

/-- The tokens agree with the words: each token has a word as its value, and its kind
is the kind of that word. -/
def Agree (tokens : List Token) (words : List String) : Prop :=
  tokens.map (fun token => (token.kind, token.value)) = words.map fun word =>
    (kindOf word, word)

private theorem agree_piece {piece rest : List Char} (hsimple : Simple piece)
    (hsome : piece ≠ []) (hstop : ∀ c ∈ rest.head?, c = ' ') (position : Nat) :
    ∃ token, Agree [token] [String.ofList piece] ∧
      Token.plain none position (piece ++ rest) =
        Token.emit [token] (Token.plain none (position + piece.length) rest) ∧
      Text.wordsFrom [] (piece ++ rest) = piece :: Text.wordsFrom [] rest := by
  obtain ⟨item, rfl, htoken⟩ := exists_item hsimple hsome
  obtain ⟨hkind, hvalue⟩ := htoken position
  refine ⟨item.token position, ?_, Item.plain_text (Item.stops_of_head hstop item)
    position, ?_⟩
  · simp [Agree, hkind, hvalue]
  · have hblank : ∀ c ∈ rest.head?, Text.isBlank c = true := by
      intro c hc
      rw [hstop c hc]
      decide
    rw [Text.wordsFrom_append (isBlank_of_simple hsimple), List.append_nil,
      Text.wordsFrom_of_stop (by simpa using hsome) hblank, List.reverse_reverse]

private theorem agree_pieces {pieces : List (List Char)}
    (hsimple : ∀ piece ∈ pieces, Simple piece) (position : Nat) :
    ∃ tokens, Token.plain none position ([' '].intercalate pieces) = .ok tokens ∧
      Agree tokens ((Text.wordsFrom [] ([' '].intercalate pieces)).map
        String.ofList) := by
  induction pieces generalizing position with
  | nil => exact ⟨[], rfl, rfl⟩
  | cons piece rest ih =>
      obtain ⟨hpiece, hrest⟩ := List.forall_mem_cons.mp hsimple
      -- What follows the piece is nothing, or a space and the other pieces.
      obtain ⟨tail, hsplit, hstop, htail⟩ : ∃ tail,
          [' '].intercalate (piece :: rest) = piece ++ tail ∧
            (∀ c ∈ tail.head?, c = ' ') ∧
          ∀ position, ∃ tokens, Token.plain none position tail = .ok tokens ∧
            Agree tokens ((Text.wordsFrom [] tail).map String.ofList) := by
        cases rest with
        | nil => exact ⟨[], by simp, by simp, fun _ => ⟨[], rfl, rfl⟩⟩
        | cons next rest =>
            refine ⟨' ' :: [' '].intercalate (next :: rest), ?_, by simp, ?_⟩
            · rw [List.intercalate_cons_cons, List.append_assoc,
                List.singleton_append]
            · intro position
              obtain ⟨tokens, hplain, hagree⟩ := ih hrest (position + 1)
              refine ⟨tokens, ?_, hagree⟩
              rw [← hplain]
              exact Token.plain_spaces position 1 _
      rw [hsplit]
      by_cases hsome : piece = []
      · subst hsome
        exact htail position
      · obtain ⟨token, hfirst, hplain, hwords⟩ :=
          agree_piece hpiece hsome hstop position
        obtain ⟨tokens, hmore, hagree⟩ := htail (position + piece.length)
        refine ⟨token :: tokens, ?_, ?_⟩
        · rw [hplain, hmore]
          rfl
        · simp only [Agree, List.map_cons, List.map_nil, List.cons.injEq,
            and_true] at hfirst hagree ⊢
          rw [hwords]
          simp only [List.map_cons, hfirst, hagree]

private theorem tokenize_spaced {text : List Char} (hspaced : Spaced text) :
    ∃ tokens, Token.tokenize (String.ofList text) = .ok tokens ∧
      Agree tokens (Text.words (String.ofList text)) := by
  have hfree : '\t' ∉ text := by
    intro hc
    obtain ⟨piece, hpiece, hmem⟩ :=
      (Text.mem_splitChars (by decide : '\t' ≠ ' ')).mpr hc
    exact absurd (isBlank_of_simple (hspaced piece hpiece) _ hmem) (by decide)
  have hpieces := agree_pieces hspaced 0
  rw [Text.intercalate_splitChars] at hpieces
  rw [Token.tokenize, Text.words, String.toList_ofList,
    Token.tokenizeChars_of_tabFree hfree]
  exact hpieces

private theorem Agree.kind_eq {tokens : List Token} {words : List String}
    (hagree : Agree tokens words) :
    ∀ token ∈ tokens, token.kind = kindOf token.value := by
  intro token htoken
  have hpair : (token.kind, token.value) ∈ words.map fun word =>
      (kindOf word, word) := by
    rw [← hagree]
    exact List.mem_map_of_mem htoken
  obtain ⟨word, -, hword⟩ := List.mem_map.mp hpair
  obtain ⟨hkind, rfl⟩ := Prod.ext_iff.mp hword
  exact hkind.symm

private theorem Agree.values {tokens : List Token} {words : List String}
    (hagree : Agree tokens words) :
    tokens.map Token.value = words := by
  have hvalues := congrArg (List.map Prod.snd) hagree
  simpa [Function.comp_def] using hvalues

private theorem kindOf_eq_pipe {word : String} :
    kindOf word = .pipe ↔ word = "|" := by
  unfold kindOf
  split_ifs <;> simp_all

private theorem isRedirection_eq {token : Token}
    (hkind : token.kind = kindOf token.value) :
    Pipeline.isRedirection token = redirectionSymbols.contains token.value := by
  simp only [Pipeline.isRedirection, Pipeline.isOutputRedirection, hkind, kindOf,
    redirectionSymbols]
  split_ifs <;> simp_all

private theorem afterLastBar_concat (words : List String) (word : String) :
    afterLastBar (words ++ [word]) = if word = "|" then []
      else afterLastBar words ++ [word] := by
  by_cases hbar : word = "|" <;> simp [afterLastBar, hbar]

private theorem afterLastBar_values {tokens : List Token}
    (hkinds : ∀ token ∈ tokens, token.kind = kindOf token.value) :
    afterLastBar (tokens.map Token.value) = (Pipeline.segments tokens).2.map
      Token.value := by
  induction tokens using List.reverseRecOn with
  | nil => rfl
  | append_singleton tokens token ih =>
      have hkind := hkinds token (List.mem_append_right _ List.mem_cons_self)
      have hbar : token.kind = .pipe ↔ token.value = "|" := by
        rw [hkind, kindOf_eq_pipe]
      rw [List.map_append, List.map_singleton, afterLastBar_concat,
        ih fun other hother => hkinds other (List.mem_append_left _ hother),
        Pipeline.segments_concat]
      by_cases hpipe : token.value = "|"
      · simp [hpipe, hbar.mpr hpipe]
      · simp [hpipe, mt hbar.mp hpipe]

private theorem getLast?_values {tokens : List Token}
    (hkinds : ∀ token ∈ tokens, token.kind = kindOf token.value) :
    (tokens.map Token.value).getLast?.map redirectionSymbols.contains =
      tokens.getLast?.map Pipeline.isRedirection := by
  rw [List.getLast?_map, Option.map_map]
  cases hlast : tokens.getLast? with
  | none => rfl
  | some token => simp [isRedirection_eq (hkinds token (List.mem_of_getLast? hlast))]

theorem analyze_of_agree {before : String} {tokens : List Token}
    (hagree : Agree tokens (Text.words before)) (word : String) :
    analyze before word =
      match (Pipeline.segments tokens).2 with
      | [] => ⟨.commandName, none, 0⟩
      | first :: rest =>
          if ((first :: rest).getLast?.map Pipeline.isRedirection).getD false then
            ⟨.path, some first.value, 0⟩
          else if Text.startsWith word "-" then ⟨.optionName, some first.value, 0⟩
          else ⟨.argument, some first.value, (first :: rest).length⟩ := by
  have hwords := afterLastBar_values hagree.kind_eq
  rw [hagree.values] at hwords
  have hkinds : ∀ token ∈ (Pipeline.segments tokens).2,
      token.kind = kindOf token.value :=
    fun token htoken => hagree.kind_eq token
      (Pipeline.segments_snd_subset tokens htoken)
  rw [analyze]
  simp only [hwords, getLast?_values hkinds]
  cases (Pipeline.segments tokens).2 with
  | nil => rfl
  | cons first rest => simp

/-- The analysis says of the word what the tokens before it say. -/
structure Analysis.Follows (analysis : Analysis) (word : List Char)
    (tokens : List Token) :
    Prop where
  commandName : analysis.target = .commandName ↔
    tokens = [] ∨ ∃ pipe, tokens.getLast? = some pipe ∧ pipe.kind = .pipe
  path : analysis.target ≠ .commandName →
    (analysis.target = .path ↔
      Pipeline.AfterRedirection (Pipeline.segments tokens).2)
  optionName : analysis.target ≠ .commandName → analysis.target ≠ .path →
    (analysis.target = .optionName ↔ word.head? = some '-')
  argument : analysis.target = .argument →
    analysis.wordIndex = (Pipeline.segments tokens).2.length
  command : ∀ first rest, (Pipeline.segments tokens).2 = first :: rest →
    first.kind = .word →
    analysis.command = some first.value ∧
      ∀ more invocation, Pipeline.parseInvocation (first :: rest ++ more) =
        .ok invocation →
        invocation.name = first.value

private theorem startsWith_dash (word : List Char) :
    Text.startsWith (String.ofList word) "-" = true ↔ word.head? = some '-' := by
  cases word with
  | nil => simp [Text.startsWith]
  | cons c rest => simpa [Text.startsWith] using ⟨Eq.symm, Eq.symm⟩

theorem follows_of_cons {analysis : Analysis} {word : List Char}
    {tokens rest : List Token} {first : Token}
    (hlast : (Pipeline.segments tokens).2 = first :: rest)
    (hcommand : analysis.command = some first.value)
    (hsome : analysis.target ≠ .commandName)
    (hpath : analysis.target = .path ↔ Pipeline.AfterRedirection (first :: rest))
    (hoption : analysis.target ≠ .path →
      (analysis.target = .optionName ↔ word.head? = some '-')) (hindex :
      analysis.target = .argument → analysis.wordIndex = (first :: rest).length) :
        analysis.Follows word tokens := by
  have hnil : ¬ (tokens = [] ∨ ∃ pipe, tokens.getLast? = some pipe ∧
      pipe.kind = .pipe) := by
    rw [← Pipeline.segments_snd_eq_nil, hlast]
    exact List.cons_ne_nil _ _
  refine ⟨⟨fun h => absurd h hsome, fun h => absurd h hnil⟩, fun _ => ?_, fun _ =>
    hoption, ?_, ?_⟩
  · rw [hlast]
    exact hpath
  · rw [hlast]
    exact hindex
  · intro other later hcons hkind
    rw [hlast] at hcons
    cases hcons
    exact ⟨hcommand, fun _ _ => Pipeline.name_of_parseInvocation hkind⟩

private theorem follows_of_agree {before : String} {tokens : List Token}
    (hagree : Agree tokens (Text.words before)) (word : List Char) :
    (analyze before (String.ofList word)).Follows word tokens := by
  have hanalysis := analyze_of_agree hagree (String.ofList word)
  cases hlast : (Pipeline.segments tokens).2 with
  | nil =>
      have hnil := Pipeline.segments_snd_eq_nil.mp hlast
      rw [hlast] at hanalysis
      rw [hanalysis]
      exact ⟨⟨fun _ => hnil, fun _ =>
        rfl⟩, by simp, by simp, by simp, by simp [hlast]⟩
  | cons first rest =>
      rw [hlast] at hanalysis
      have hpath : Pipeline.AfterRedirection (first :: rest) ↔
          ((first :: rest).getLast?.map Pipeline.isRedirection).getD false =
            true := by
        rw [Pipeline.AfterRedirection]
        cases (first :: rest).getLast? <;> simp
      have hdash := startsWith_dash word
      dsimp only at hanalysis
      rw [hanalysis]
      split
      · next h => apply follows_of_cons hlast <;> simp [hpath, h]
      · next h =>
          split
          · next hstarts => apply follows_of_cons hlast <;>
              simp [hpath, h, ← hdash, hstarts]
          · next hstarts => apply follows_of_cons hlast <;>
              simp [hpath, h, ← hdash, hstarts]

private theorem splitLine_append {before word : List Char}
    (hend : ∀ c ∈ before.getLast?, c = ' ') (hword : ' ' ∉ word) :
    splitLine (before ++ word) = (before, word) := by
  have hbefore : before.reverse.takeWhile (· ≠ ' ') = [] := by
    cases hreverse : before.reverse with
    | nil => rfl
    | cons c rest =>
        have hc := hend c (by rw [← List.head?_reverse, hreverse]; rfl)
        simp [hc]
  have hall : ∀ c ∈ word.reverse, decide (c ≠ ' ') = true := by
    intro c hc
    exact decide_eq_true fun heq => hword (heq ▸ List.mem_reverse.mp hc)
  have htaken : (before ++ word).reverse.takeWhile (· ≠ ' ') = word.reverse := by
    rw [List.reverse_append, List.takeWhile_append_of_pos hall, hbefore,
      List.append_nil]
  simp only [splitLine, htaken, List.reverse_reverse, List.length_append,
    Nat.add_sub_cancel, List.take_left]

/-- Completion cuts a line after its last space. If the part before is spaced, the
shell can read it, and completion and the shell read it alike. -/
theorem analyze_follows_tokens {before word : List Char}
    (hend : ∀ c ∈ before.getLast?, c = ' ') (hword : ' ' ∉ word)
    (hspaced : Spaced before) : splitLine (before ++ word) = (before, word) ∧
      ∃ tokens, Token.tokenize (String.ofList before) = .ok tokens ∧
        (analyze (String.ofList before) (String.ofList word)).Follows word
          tokens := by
  obtain ⟨tokens, htokenize, hagree⟩ := tokenize_spaced hspaced
  exact ⟨splitLine_append hend hword, tokens, htokenize,
    follows_of_agree hagree word⟩

/-- After a pipe, a word of the second command. -/
theorem analyze_follows_tokens_grep :
    let before := "ls -l > o  | grep -- ".toList
    let word := "-x".toList
    (∀ c ∈ before.getLast?, c = ' ') ∧ ' ' ∉ word ∧ Spaced before ∧
      splitLine (before ++ word) = (before, word) ∧
      ∃ tokens, Token.tokenize (String.ofList before) = .ok tokens ∧
        (analyze (String.ofList before) (String.ofList word)).Follows word
          tokens := by
  have hend : ∀ c ∈ "ls -l > o  | grep -- ".toList.getLast?, c = ' ' := by
    intro c hc
    exact (Option.some.inj hc).symm
  have hword : ' ' ∉ "-x".toList := by decide
  have hspaced : Spaced "ls -l > o  | grep -- ".toList := by decide +kernel
  exact ⟨hend, hword, hspaced, analyze_follows_tokens hend hword hspaced⟩

end Completion

end PipeShell
