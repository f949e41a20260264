import Mathlib.Data.List.Induction
import PipeShell.Proofs.TokenLocality

namespace PipeShell.Token

/-- The text is made of spaces and of items, and these are the tokens of the
items. -/
inductive Tiled : List Char → List Token → Prop
  | nil : Tiled [] []
  | space {text : List Char} {tokens : List Token} (htiled : Tiled text tokens) :
      Tiled (text ++ [' ']) tokens
  | item {text piece : List Char} {tokens : List Token} {token : Token}
      (htiled : Tiled text tokens) (hsome : piece ≠ [])
      (hread : plain none text.length piece = .ok [token])
      (hspan : token.span = ⟨text.length, piece.length⟩) :
      Tiled (text ++ piece) (tokens ++ [token])

def State.start? : State → Option Nat
  | .plain word _ => word.map Draft.start
  | .arrow start => some start
  | .escaping word start => some (draftAt word start).start
  | .single draft _ _ => some draft.start
  | .double draft _ _ => some draft.start
  | .doubleEscaping draft _ _ => some draft.start

theorem Draft.span_token (draft : Draft) (stop : Nat) :
    (draft.token stop).span = ⟨draft.start, stop - draft.start⟩ := by
  unfold Draft.token
  dsimp only
  split <;> rfl

namespace State

variable {state : State} {start : Nat}

theorem finish_under_way (hstart : state.start? = some start) {found : List Token}
    (hend : state.finish = .ok found) :
    ∃ token, found = [token] ∧ token.span = ⟨start, state.position - start⟩ := by
  cases state with
  | plain word position =>
      cases word with
      | none => cases hstart
      | some draft =>
          cases hend
          cases hstart
          exact ⟨_, rfl, draft.span_token position⟩
  | arrow begun =>
      cases hend
      cases hstart
      refine ⟨_, rfl, ?_⟩
      rw [position, Nat.add_sub_cancel_left]
      rfl
  | escaping word start => cases hend
  | single draft opened position => cases hend
  | double draft opened position => cases hend
  | doubleEscaping draft opened start => cases hend

theorem stepPlain_between (position : Nat) (c : Char) :
    (c = ' ' ∧ stepPlain none position c = ([], .plain none (position + 1))) ∨
      (∃ token, stepPlain none position c = ([token], .plain none (position + 1)) ∧
        token.span = ⟨position, 1⟩) ∨
      ∃ next, stepPlain none position c = ([], next) ∧
        next.start? = some position := by
  unfold stepPlain
  split
  · exact .inr (.inr ⟨_, rfl, rfl⟩)
  split
  · exact .inr (.inr ⟨_, rfl, rfl⟩)
  split
  · next hspace => exact .inl ⟨hspace, rfl⟩
  split
  · exact .inr (.inl ⟨_, rfl, rfl⟩)
  split
  · exact .inr (.inl ⟨_, rfl, rfl⟩)
  split
  · exact .inr (.inr ⟨_, rfl, rfl⟩)
  split
  · exact .inr (.inr ⟨_, rfl, rfl⟩)
  · exact .inr (.inr ⟨_, rfl, rfl⟩)

/-- The character belongs to the item under way, or completes it, or stands after its
end. -/
inductive Continues (state : State) (start : Nat) (c : Char) : Prop
  | goesOn {next : State} (hstep : state.step c = ([], next))
      (hstart : next.start? = some start)
  | completes {token : Token}
      (hstep : state.step c = ([token], .plain none (state.position + 1)))
      (hspan : token.span = ⟨start, state.position + 1 - start⟩)
  | ended {found : List Token} (hend : state.finish = .ok found)
      (hstep : state.step c =
        (found ++ (stepPlain none state.position c).1,
          (stepPlain none state.position c).2))

private theorem continues_plain (draft : Draft) (position : Nat) (c : Char) :
    Continues (.plain (some draft) position) draft.start c := by
  by_cases hstop : c ∈ [' ', '|', '<', '>']
  · refine .ended rfl ?_
    simp only [List.mem_cons, List.not_mem_nil, or_false] at hstop
    rcases hstop with rfl | rfl | rfl | rfl <;> rfl
  · simp only [List.mem_cons, List.not_mem_nil, or_false, not_or] at hstop
    obtain ⟨hspace, hpipe, hless, hgreater⟩ := hstop
    have hstep : (State.plain (some draft) position).step c =
        if c = '\\' then ([], .escaping (some draft) position)
        else if c = '"' then ([], .double draft.quote position (position + 1))
        else if c = '\'' then ([], .single draft.quote position (position + 1))
        else ([], .plain (some (draft.push c)) (position + 1)) := by
      rw [step, stepPlain, if_neg hspace, if_neg hpipe, if_neg hless,
        if_neg hgreater]
      rfl
    split at hstep
    · exact .goesOn hstep rfl
    split at hstep
    · exact .goesOn hstep rfl
    split at hstep
    · exact .goesOn hstep rfl
    · exact .goesOn hstep rfl

private theorem continues (hstart : state.start? = some start) (c : Char) :
    Continues state start c := by
  cases state with
  | plain word position =>
      cases word with
      | none => cases hstart
      | some draft =>
          cases hstart
          exact continues_plain draft position c
  | arrow begun =>
      cases hstart
      by_cases hdouble : c = '>'
      · refine .completes (if_pos hdouble) ?_
        rw [position, Nat.add_assoc, Nat.add_sub_cancel_left]
        rfl
      · exact .ended rfl (if_neg hdouble)
  | escaping word begun => exact .goesOn rfl hstart
  | single draft opened position =>
      by_cases hquote : c = '\''
      · exact .goesOn (if_pos hquote) hstart
      · exact .goesOn (if_neg hquote) hstart
  | double draft opened position =>
      by_cases hquote : c = '"'
      · exact .goesOn (if_pos hquote) hstart
      by_cases hslash : c = '\\'
      · exact .goesOn ((if_neg hquote).trans (if_pos hslash)) hstart
      · exact .goesOn ((if_neg hquote).trans (if_neg hslash)) hstart
  | doubleEscaping draft opened begun =>
      by_cases hescaped : c = '"' ∨ c = '\\'
      · exact .goesOn (if_pos hescaped) hstart
      · exact .goesOn (if_neg hescaped) hstart

end State

/-- What has been read is made of items, up to the one that may be under way. -/
inductive Progress : List Char → Scan → Prop
  | between {text : List Char} {tokens : List Token} {position : Nat}
      (htiled : Tiled text tokens) (hposition : position = text.length) :
      Progress text ⟨tokens, .plain none position⟩
  | within {text piece : List Char} {tokens : List Token} {state : State}
      (htiled : Tiled text tokens)
      (hread : (Scan.start text.length).readAll piece = ⟨[], state⟩)
      (hstart : state.start? = some text.length) :
      Progress (text ++ piece) ⟨tokens, state⟩

variable {text piece : List Char} {tokens : List Token} {scan : Scan}

theorem position_of_readAll {state : State} {found : List Token} {position : Nat}
    (hread : (Scan.start position).readAll piece = ⟨found, state⟩) :
    state.position = position + piece.length := by
  have hposition := Scan.position_readAll (Scan.start position) piece
  rw [hread] at hposition
  exact hposition

private theorem Tiled.between (htiled : Tiled text tokens) (c : Char) :
    Progress (text ++ [c]) (Scan.read ⟨tokens, .plain none text.length⟩ c) := by
  have hlength : text.length + 1 = (text ++ [c]).length := by simp
  rcases State.stepPlain_between text.length c with
    ⟨rfl, hstep⟩ | ⟨token, hstep, hspan⟩ | ⟨next, hstep, hstart⟩
  · rw [Scan.read, State.step, hstep, List.append_nil]
    exact .between htiled.space hlength
  · have hread : plain none text.length [c] = .ok [token] := by
      rw [plain_eq_finish]
      change (Scan.read ⟨[], .plain none text.length⟩ c).finish = _
      rw [Scan.read, State.step, hstep]
      rfl
    rw [Scan.read, State.step, hstep]
    exact .between (htiled.item (List.cons_ne_nil c []) hread hspan) hlength
  · rw [Scan.read, State.step, hstep, List.append_nil]
    refine .within htiled ?_ hstart
    change Scan.read ⟨[], .plain none text.length⟩ c = _
    rw [Scan.read, State.step, hstep, List.append_nil]

theorem Tiled.complete (htiled : Tiled text tokens) {state : State}
    {found : List Token} (hread : (Scan.start text.length).readAll piece =
      ⟨[], state⟩)
    (hstart : state.start? = some text.length) (hend : state.finish = .ok found) :
    Tiled (text ++ piece) (tokens ++ found) := by
  obtain ⟨token, rfl, hspan⟩ := State.finish_under_way hstart hend
  have hsome : piece ≠ [] := by
    rintro rfl
    cases hread
    cases hstart
  apply htiled.item hsome
  · rw [plain_eq_finish, hread, Scan.finish, hend]
    rfl
  · rw [hspan, position_of_readAll hread, Nat.add_sub_cancel_left]

private theorem Progress.read (hprogress : Progress text scan) (c : Char) :
    Progress (text ++ [c]) (scan.read c) := by
  cases hprogress with
  | between htiled hposition =>
      subst hposition
      exact htiled.between c
  | @within done piece tokens state htiled hread hstart =>
      have hposition := position_of_readAll hread
      cases State.continues hstart c with
      | @goesOn next hstep hnext =>
          rw [List.append_assoc, Scan.read, hstep, List.append_nil]
          refine .within htiled ?_ hnext
          rw [Scan.readAll_concat, hread, Scan.read, hstep, List.append_nil]
      | @completes token hstep hspan =>
          rw [Scan.read, hstep]
          refine .between ?_ (by simp [hposition, Nat.add_assoc])
          rw [List.append_assoc]
          apply htiled.item (by simp)
          · rw [plain_eq_finish, Scan.readAll_concat, hread, Scan.read, hstep]
            rfl
          · rw [hspan, hposition, Nat.add_assoc, Nat.add_sub_cancel_left,
              List.length_append]
            rfl
      | @ended found hend hstep =>
          -- Reading on is reading from where the item has ended.
          have hsame : Scan.read ⟨tokens, state⟩ c =
              Scan.read ⟨tokens ++ found, .plain none (done ++ piece).length⟩ c := by
            rw [Scan.read, Scan.read, hstep, hposition, List.length_append,
              List.append_assoc]
            rfl
          rw [hsame]
          exact (htiled.complete hread hstart hend).between c

private theorem progress_readAll (text : List Char) :
    Progress text ((Scan.start 0).readAll text) := by
  induction text using List.reverseRecOn with
  | nil => exact .between .nil rfl
  | append_singleton text c ih =>
      rw [Scan.readAll_concat]
      exact ih.read c

theorem tiled_of_plain (hread : plain none 0 text = .ok tokens) :
    Tiled text tokens := by
  rw [plain_eq_finish] at hread
  have hprogress := progress_readAll text
  generalize (Scan.start 0).readAll text = scan at hread hprogress
  obtain ⟨later, hend, rfl⟩ := emit_ok hread
  cases hprogress with
  | between htiled hposition =>
      cases hend
      rw [closing, List.append_nil]
      exact htiled
  | within htiled hpiece hstart => exact htiled.complete hpiece hstart hend

def Span.part (span : Span) (text : List Char) : List Char :=
  (text.drop span.start).take span.length

private theorem Span.part_append {span : Span} (hinside : span.stop ≤ text.length)
    (piece : List Char) :
    span.part (text ++ piece) = span.part text := by
  have hrest : span.length ≤ (text.drop span.start).length := by
    rw [List.length_drop]
    unfold Span.stop at hinside
    omega
  unfold Span.part
  rw [List.drop_append_of_le_length (Nat.le_of_add_right_le hinside),
    List.take_append_of_le_length hrest]

theorem Tiled.inside (htiled : Tiled text tokens) :
    ∀ token ∈ tokens, 0 < token.span.length ∧ token.span.stop ≤ text.length := by
  induction htiled with
  | nil => exact nofun
  | space htiled ih =>
      intro token htoken
      rw [List.length_append]
      exact ⟨(ih token htoken).1, Nat.le_add_right_of_le (ih token htoken).2⟩
  | item htiled hsome hread hspan ih =>
      intro token htoken
      rw [List.length_append]
      rcases List.mem_append.mp htoken with hearlier | hnew
      · exact ⟨(ih token hearlier).1, Nat.le_add_right_of_le (ih token hearlier).2⟩
      · rw [List.mem_singleton.mp hnew, Span.stop, hspan]
        exact ⟨List.length_pos_iff.mpr hsome, Nat.le_refl _⟩

private theorem Tiled.apart (htiled : Tiled text tokens) :
    tokens.Pairwise fun left right => left.span.stop ≤ right.span.start := by
  induction htiled with
  | nil => exact .nil
  | space htiled ih => exact ih
  | item htiled hsome hread hspan ih =>
      refine List.pairwise_append.mpr ⟨ih, List.pairwise_singleton _ _, ?_⟩
      intro left hleft right hright
      rw [List.mem_singleton.mp hright, hspan]
      exact (htiled.inside left hleft).2

private theorem Tiled.outside (htiled : Tiled text tokens) {index : Nat} {c : Char}
    (hindex : text[index]? = some c)
    (hfree : ∀ token ∈ tokens,
      ¬ (token.span.start ≤ index ∧ index < token.span.stop)) :
    c = ' ' := by
  induction htiled with
  | nil => cases hindex
  | @space text tokens htiled ih =>
      rw [List.getElem?_append] at hindex
      split at hindex
      · exact ih hindex hfree
      · exact List.mem_singleton.mp (List.mem_of_getElem? hindex)
  | @item text piece tokens token htiled hsome hread hspan ih =>
      rw [List.getElem?_append] at hindex
      split at hindex
      · apply ih hindex
        intro other hother
        exact hfree other (List.mem_append_left _ hother)
      · next hafter =>
          obtain ⟨hlast, -⟩ := List.getElem?_eq_some_iff.mp hindex
          refine absurd ?_ (hfree token (List.mem_append_right _ List.mem_cons_self))
          rw [Span.stop, hspan]
          dsimp only
          omega

/-- An item has the same token where it stands and at the start of a line. -/
theorem Tiled.alone (htiled : Tiled text tokens) :
    ∀ token ∈ tokens,
      plain none 0 (token.span.part text) =
        .ok [{ token with span := ⟨0, token.span.length⟩ }] := by
  induction htiled with
  | nil => exact nofun
  | space htiled ih =>
      intro token htoken
      rw [Span.part_append (htiled.inside token htoken).2]
      exact ih token htoken
  | @item text piece tokens new htiled hsome hread hspan ih =>
      intro token htoken
      rcases List.mem_append.mp htoken with hearlier | hnew
      · rw [Span.part_append (htiled.inside token hearlier).2]
        exact ih token hearlier
      · rw [List.mem_singleton.mp hnew]
        have hpart : new.span.part (text ++ piece) = piece := by
          rw [Span.part, hspan, List.drop_left, List.take_length]
        have hshift := plain_shift text.length 0 piece
        rw [Nat.add_zero, hread] at hshift
        rw [hpart]
        cases hzero : plain none 0 piece with
        | error error =>
            rw [hzero] at hshift
            cases hshift
        | ok found =>
            rw [hzero, shifted] at hshift
            obtain ⟨token, rfl, rfl⟩ :=
              List.map_eq_singleton_iff.mp (Except.ok.inj hshift).symm
            have hstart : token.span.start = 0 := by
              have hstarts := congrArg Span.start hspan
              exact Nat.add_left_cancel hstarts
            have hsame : token.span = ⟨0, token.span.length⟩ := by rw [← hstart]
            rw [shift]
            dsimp only
            rw [← hsame]

/-- The tokens account for every character of a text. -/
structure Covers (tokens : List Token) (text : String) : Prop where
  nonempty : ∀ token ∈ tokens, 0 < token.span.length
  inside : ∀ token ∈ tokens, token.span.stop ≤ text.length
  increasing : tokens.Pairwise fun left right => left.span.start < right.span.start
  disjoint : tokens.Pairwise fun left right => left.span.stop ≤ right.span.start
  spaces : ∀ index c, text.toList[index]? = some c →
    (∀ token ∈ tokens, ¬ (token.span.start ≤ index ∧ index < token.span.stop)) →
      c = ' '
  alone : ∀ token ∈ tokens,
    tokenize (String.ofList (token.span.part text.toList)) =
      .ok [{ token with span := ⟨0, token.span.length⟩ }]

theorem covers_of_tokenize {text : String} (hread : tokenize text = .ok tokens) :
    Covers tokens text := by
  obtain ⟨hfree, hplain⟩ := tokenizeChars_ok hread
  have htiled := tiled_of_plain hplain
  refine ⟨fun token htoken => (htiled.inside token htoken).1, ?_, ?_, htiled.apart,
    fun _ _ => htiled.outside, ?_⟩
  · intro token htoken
    rw [← String.length_toList]
    exact (htiled.inside token htoken).2
  · refine htiled.apart.imp_of_mem fun {left right} hleft _ hafter => ?_
    have hlength := (htiled.inside left hleft).1
    unfold Span.stop at hafter
    omega
  · intro token htoken
    have hpart : '\t' ∉ token.span.part text.toList := fun hmem =>
      hfree (List.mem_of_mem_drop (List.mem_of_mem_take hmem))
    rw [tokenize, String.toList_ofList, tokenizeChars_of_tabFree hpart]
    exact htiled.alone token htoken

def mixedTokens : List Token :=
  [⟨.word, "a b\\", ⟨0, 8⟩, true⟩, ⟨.redirectAppend, ">>", ⟨8, 2⟩, false⟩,
    ⟨.word, "c", ⟨10, 3⟩, true⟩, ⟨.endOfOptions, "--", ⟨15, 2⟩, false⟩]

theorem covers_of_tokenize_mixed :
    tokenize "a\\ \"b\\\\\">>'c'  --" = .ok mixedTokens ∧
      Covers mixedTokens "a\\ \"b\\\\\">>'c'  --" :=
  ⟨rfl, covers_of_tokenize rfl⟩

end PipeShell.Token
