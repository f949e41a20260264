import PipeShell.Proofs.TokenLayout
import PipeShell.Proofs.TokenSpans

namespace PipeShell.Token

def valueLength : List Token → Nat
  | [] => 0
  | token :: rest => token.value.length + valueLength rest

@[simp] theorem valueLength_nil : valueLength [] = 0 := rfl

@[simp] theorem valueLength_cons (token : Token) (tokens : List Token) :
    valueLength (token :: tokens) = token.value.length + valueLength tokens := rfl

@[simp] theorem valueLength_append (first second : List Token) :
    valueLength (first ++ second) = valueLength first + valueLength second := by
  induction first with
  | nil => simp
  | cons token rest ih => simp [ih, Nat.add_assoc]

def keptOf (word : Option Draft) : Nat :=
  (word.map fun draft => draft.chars.length).getD 0

/-- The characters that have been read and are not part of a token yet. -/
def State.kept : State → Nat
  | .plain word _ => keptOf word
  | .arrow _ => 1
  | .escaping word _ => keptOf word
  | .single draft _ _ => draft.chars.length
  | .double draft _ _ => draft.chars.length
  | .doubleEscaping draft _ _ => draft.chars.length + 1

theorem Draft.length_token (draft : Draft) (stop : Nat) :
    (draft.token stop).value.length = draft.chars.length := by
  unfold Draft.token
  dsimp only
  split <;> simp

@[simp] theorem valueLength_closing (word : Option Draft) (position : Nat) :
    valueLength (closing word position) = keptOf word := by
  cases word with
  | none => rfl
  | some draft => simp [closing, keptOf, draft.length_token]

@[simp] theorem length_draftAt (word : Option Draft) (position : Nat) :
    (draftAt word position).chars.length = keptOf word := by
  cases word <;> rfl

@[simp] theorem Draft.length_push (draft : Draft) (c : Char) :
    (draft.push c).chars.length = draft.chars.length + 1 := rfl

@[simp] theorem Draft.length_quote (draft : Draft) :
    draft.quote.chars.length = draft.chars.length := rfl

namespace State

private theorem kept_stepPlain (word : Option Draft) (position : Nat) (c : Char) :
    valueLength (stepPlain word position c).1 + (stepPlain word position c).2.kept ≤
      keptOf word + 1 := by
  unfold stepPlain
  split
  · simp [kept]
  split
  · simp [kept]
  split
  · simp [kept, keptOf]
  split
  · simp [kept, keptOf, operator]
    decide
  split
  · simp [kept, keptOf, operator]
    decide
  split
  · simp [kept]
  split
  · simp [kept]
  · simp [kept, keptOf]

/-- Outside quotes these are not part of any value. -/
theorem kept_stepPlain_of_lost {c : Char} (hc : c ∈ [' ', '"', '\'', '\\'])
    (word : Option Draft) (position : Nat) :
    valueLength (stepPlain word position c).1 + (stepPlain word position c).2.kept =
      keptOf word := by
  simp only [List.mem_cons, List.not_mem_nil, or_false] at hc
  rcases hc with rfl | rfl | rfl | rfl <;> simp [stepPlain, kept, keptOf]

private theorem kept_step (state : State) (c : Char) :
    valueLength (state.step c).1 + (state.step c).2.kept ≤ state.kept + 1 := by
  cases state with
  | plain word position => exact kept_stepPlain word position c
  | arrow start =>
      have hplain : _ ≤ 0 + 1 := kept_stepPlain none (start + 1) c
      have harrow : ">".length = 1 := by decide
      rw [step]
      split
      · simp [kept, keptOf, operator]
        decide
      · simp only [valueLength_cons, operator, harrow]
        change _ ≤ 1 + 1
        omega
  | escaping word start => simp [step, kept, keptOf]
  | single draft opened position =>
      rw [step]
      split <;> simp [kept, keptOf]
  | double draft opened position =>
      rw [step]
      split
      · simp [kept, keptOf]
      · split <;> simp [kept]
  | doubleEscaping draft opened start =>
      rw [step]
      split <;> simp [kept]

private theorem kept_finish {state : State} {tokens : List Token}
    (hend : state.finish = .ok tokens) :
    valueLength tokens = state.kept := by
  cases state with
  | plain word position =>
      cases hend
      exact valueLength_closing word position
  | arrow start =>
      cases hend
      simp [operator, kept]
      decide
  | escaping word start => cases hend
  | single draft opened position => cases hend
  | double draft opened position => cases hend
  | doubleEscaping draft opened start => cases hend

private theorem kept_resume {state : State} {rest : List Char} {tokens : List Token}
    (hread : state.resume rest = .ok tokens) :
    valueLength tokens ≤ state.kept + rest.length := by
  induction rest generalizing state tokens with
  | nil =>
      rw [resume_nil] at hread
      exact (kept_finish hread).le
  | cons c rest ih =>
      rw [resume_cons] at hread
      obtain ⟨later, hlater, rfl⟩ := emit_ok hread
      have hstep := kept_step state c
      have hrest := ih hlater
      rw [valueLength_append, List.length_cons]
      omega

end State

private theorem exists_operator_of_plain {word : Option Draft}
    {position : Nat} {c : Char} {rest : List Char} {tokens : List Token}
    (hc : c ∈ ['|', '<', '>'])
    (hread : plain word position (c :: rest) = .ok tokens) :
    ∃ token ∈ tokens, token.kind ≠ .word ∧ token.kind ≠ .endOfOptions := by
  have hmade {kind : Kind} {value : String} {later : Except ParseError (List Token)}
      (hkind : kind ≠ .word ∧ kind ≠ .endOfOptions)
      (hemit : emit (closing word position ++ [operator kind value position]) later =
        .ok tokens) :
      ∃ token ∈ tokens, token.kind ≠ .word ∧ token.kind ≠ .endOfOptions := by
    obtain ⟨later, -, rfl⟩ := emit_ok hemit
    exact ⟨operator kind value position, by simp, hkind⟩
  simp only [List.mem_cons, List.not_mem_nil, or_false] at hc
  rcases hc with rfl | rfl | rfl
  · rw [plain_pipe] at hread
    exact hmade (by decide) hread
  · rw [plain_redirectIn] at hread
    exact hmade (by decide) hread
  · by_cases hdouble : rest.head? = some '>'
    · obtain ⟨after, rfl⟩ := List.head?_eq_some_iff.mp hdouble
      rw [plain_redirectAppend] at hread
      exact hmade (by decide) hread
    · rw [plain_redirectOut _ _ hdouble] at hread
      exact hmade (by decide) hread

/-- If nothing of a text is lost and no operator is found, it has no marks. -/
theorem unmarked_of_plain {text : List Char} {word : Option Draft} {position : Nat}
    {tokens : List Token} (hread : plain word position text = .ok tokens)
    (hwords : ∀ token ∈ tokens, token.kind = .word ∨ token.kind = .endOfOptions)
    (hlength : valueLength tokens = keptOf word + text.length) :
    ∀ c ∈ text, c ∉ marks := by
  induction text generalizing word position with
  | nil => exact nofun
  | cons c rest ih =>
      by_cases hoperator : c ∈ ['|', '<', '>']
      · obtain ⟨token, htoken, hkind⟩ := exists_operator_of_plain hoperator hread
        exact absurd (hwords token htoken) (not_or.mpr hkind)
      by_cases hlost : c ∈ [' ', '"', '\'', '\\']
      · -- Such a character adds nothing, and the rest cannot make up for it.
        rw [State.resume_stepPlain] at hread
        obtain ⟨later, hlater, rfl⟩ := emit_ok hread
        have hstep := State.kept_stepPlain_of_lost hlost word position
        have hrest := State.kept_resume hlater
        rw [valueLength_append, List.length_cons] at hlength
        omega
      have hordinary : c ∉ marks := by
        simp only [marks, List.mem_cons, List.not_mem_nil, or_false,
          not_or] at hoperator hlost ⊢
        tauto
      rw [plain_ordinary word position rest hordinary] at hread
      refine List.forall_mem_cons.mpr ⟨hordinary, ih hread ?_⟩
      rw [hlength, List.length_cons]
      simp [keptOf]
      omega

structure Verbatim (text : List Char) : Prop where
  unmarked : ∀ c ∈ text, c ∉ marks
  tabFree : '\t' ∉ text
  notEnd : text ≠ ['-', '-']

theorem plain_none_unmarked {text : List Char} (hsome : text ≠ [])
    (hunmarked : ∀ c ∈ text, c ∉ marks) (position : Nat) :
    plain none position text =
      .ok [⟨if text = ['-', '-'] then .endOfOptions else .word, String.ofList text,
        ⟨position, text.length⟩, false⟩] := by
  have hword := plain_word hunmarked hsome position
    (fun c hc => absurd hc (by simp) : ∀ c ∈ ([] : List Char).head?,
      c ∈ [' ', '|', '<', '>'])
  rwa [List.append_nil] at hword

private theorem plain_eq_word_iff {text : List Char} (hsome : text ≠ [])
    (position : Nat) :
    (∃ token, token.kind = .word ∧ token.value = String.ofList text ∧
        plain none position text = .ok [token]) ↔
      (∀ c ∈ text, c ∉ marks) ∧ text ≠ ['-', '-'] := by
  constructor
  · rintro ⟨token, hkind, hvalue, hread⟩
    have hlength : valueLength [token] = keptOf none + text.length := by
      simp [hvalue, keptOf]
    have hunmarked := unmarked_of_plain hread (by simp [hkind]) hlength
    refine ⟨hunmarked, ?_⟩
    rintro rfl
    rw [plain_none_unmarked hsome hunmarked] at hread
    obtain rfl := List.singleton_inj.mp (Except.ok.inj hread)
    cases hkind
  · rintro ⟨hunmarked, hdashes⟩
    refine ⟨_, ?_, ?_, plain_none_unmarked hsome hunmarked position⟩
    · exact if_neg hdashes
    · rfl

theorem emit_eq_ok_append {first second : List Token}
    {later : Except ParseError (List Token)} :
    emit first later = .ok (first ++ second) ↔ later = .ok second := by
  constructor
  · intro hemit
    obtain ⟨found, hfound, hsame⟩ := emit_ok hemit
    rw [hfound, List.append_cancel_left hsame]
  · rintro rfl
    rfl

def Released (tokens : List Token) (position : Nat) : Prop :=
  ∀ token ∈ tokens, token.span.stop < position

/-- The last token goes up to the next character, and may go on with it. -/
def HoldsOn (tokens : List Token) (before : List Char) : Prop :=
  ∃ earlier draft, tokens = earlier ++ [Draft.token draft before.length] ∧
    ∀ text, plain none 0 (before ++ text) =
      emit earlier (plain (some draft) before.length text)

variable {before text : List Char} {tokens : List Token}

theorem holdsOn_of_escaping {first : List Char} {word : Option Draft} {start : Nat}
    {earlier : List Token} (hscan : (Scan.start 0).readAll first =
      ⟨earlier, .escaping word start⟩)
    (hread : plain none 0 (first ++ [' ']) = .ok tokens) :
    HoldsOn tokens (first ++ [' ']) := by
  have hposition : start + 1 = 0 + first.length := position_of_readAll hscan
  have hspace : (Scan.start 0).readAll (first ++ [' ']) =
      ⟨earlier, .plain (some ((draftAt word start).push ' '))
        (first ++ [' ']).length⟩ := by
    have hlength : start + 2 = (first ++ [' ']).length := by
      rw [List.length_append, List.length_singleton]
      omega
    rw [Scan.readAll_concat, hscan, Scan.read, State.step, List.append_nil, hlength]
  refine ⟨earlier, (draftAt word start).push ' ', ?_, ?_⟩
  · rw [plain_eq_finish, hspace] at hread
    exact (Except.ok.inj hread).symm
  · intro text
    rw [plain_eq_finish, Scan.readAll_append, hspace, Scan.finish_readAll]
    rfl

private theorem released_of_plain {first found : List Token} {chars : List Char}
    (hfirst : plain none 0 chars = .ok first)
    (hread : plain none 0 (chars ++ [' ']) = .ok found) :
    Released found (chars ++ [' ']).length ∧
      ∀ text, plain none 0 (chars ++ [' '] ++ text) =
        emit found (plain none (chars ++ [' ']).length text) := by
  have hjoin := plain_join hfirst (c := ' ') (by decide)
  obtain rfl : found = first := by
    rw [hjoin []] at hread
    have hsame : first ++ separatorTokens ' ' chars.length ++ [] = found :=
      Except.ok.inj hread
    simpa [separatorTokens] using hsame.symm
  constructor
  · intro token htoken
    have hinside := ((tiled_of_plain hfirst).inside token htoken).2
    rw [List.length_append, List.length_singleton]
    omega
  · intro text
    rw [List.append_assoc, List.singleton_append, hjoin text, ← plain_shift]
    simp [separatorTokens]

/-- A space ends what stands before it, unless it has been escaped. -/
theorem released_or_holdsOn (hread : plain none 0 before = .ok tokens)
    (hends : ∀ c ∈ before.getLast?, c = ' ') :
    (Released tokens before.length ∧
        ∀ text, plain none 0 (before ++ text) =
          emit tokens (plain none before.length text)) ∨
      HoldsOn tokens before := by
  rcases List.eq_nil_or_concat' before with rfl | ⟨first, c, rfl⟩
  · cases hread
    exact .inl ⟨nofun, fun text => (emit_nil _).symm⟩
  obtain rfl : c = ' ' := hends c (by simp)
  cases hscan : (Scan.start 0).readAll first with
  | mk earlier state =>
      have hfirst : plain none 0 first = emit earlier state.finish := by
        rw [plain_eq_finish, hscan]
        rfl
      have hspace : (Scan.read ⟨earlier, state⟩ ' ').finish = .ok tokens := by
        rw [← hread, plain_eq_finish, Scan.readAll_concat, hscan]
      -- A space inside quotes leaves them open, and the line unfinished.
      cases state with
      | plain word position => exact .inl (released_of_plain hfirst hread)
      | arrow start => exact .inl (released_of_plain hfirst hread)
      | escaping word start => exact .inr (holdsOn_of_escaping hscan hread)
      | single draft opened position => cases hspace
      | double draft opened position => cases hspace
      | doubleEscaping draft opened start => cases hspace

private theorem HoldsOn.not_released (hholds : HoldsOn tokens before) :
    ¬ Released tokens before.length := by
  obtain ⟨earlier, draft, rfl, -⟩ := hholds
  intro hreleased
  have hstop := hreleased (draft.token before.length) (by simp)
  rw [Span.stop, draft.span_token] at hstop
  dsimp only at hstop
  omega

private theorem Draft.kind_token (draft : Draft) (stop : Nat) :
    (draft.token stop).kind = .word ∨ (draft.token stop).kind = .endOfOptions := by
  unfold Draft.token
  dsimp only
  split
  · exact .inr rfl
  · exact .inl rfl

theorem HoldsOn.not_verbatim (hholds : HoldsOn tokens before) {token : Token}
    (hkind : token.kind = .word) (hvalue : token.value = String.ofList text) :
    plain none 0 (before ++ text) ≠ .ok (tokens ++ [token]) := by
  obtain ⟨earlier, draft, rfl, hgoesOn⟩ := hholds
  intro hread
  rw [hgoesOn, List.append_assoc, emit_eq_ok_append] at hread
  have hkinds : ∀ found ∈ [draft.token before.length] ++ [token],
      found.kind = .word ∨ found.kind = .endOfOptions := by
    intro found hfound
    rcases List.mem_pair.mp hfound with rfl | rfl
    · exact draft.kind_token before.length
    · exact .inl hkind
  have hlength : valueLength ([draft.token before.length] ++ [token]) =
      keptOf (some draft) + text.length := by
    simp [draft.length_token, hvalue, keptOf]
  have hunmarked := unmarked_of_plain hread hkinds hlength
  rw [← text.append_nil, plain_unmarked hunmarked] at hread
  exact absurd (congrArg List.length (Except.ok.inj hread)) (by simp [closing])

/-- Added after a space, a text is one more word, just as it stands, exactly if the
space separates and nothing in the text has a meaning of its own. -/
theorem tokenizeChars_append_iff (hread : tokenizeChars before = .ok tokens)
    (hends : ∀ c ∈ before.getLast?, c = ' ') (hsome : text ≠ []) :
    (∃ token, token.kind = .word ∧ token.value = String.ofList text ∧
        tokenizeChars (before ++ text) = .ok (tokens ++ [token])) ↔
      Released tokens before.length ∧ Verbatim text := by
  obtain ⟨hfree, hplain⟩ := tokenizeChars_ok hread
  by_cases htab : '\t' ∈ text
  · have hfails : ∀ found, tokenizeChars (before ++ text) ≠ .ok found :=
      fun found hfound =>
      (tokenizeChars_ok hfound).1 (List.mem_append_right _ htab)
    constructor
    · rintro ⟨token, -, -, hfound⟩
      exact absurd hfound (hfails _)
    · rintro ⟨-, hverbatim⟩
      exact absurd htab hverbatim.tabFree
  have hjoined : '\t' ∉ before ++ text := by simp [hfree, htab]
  rw [tokenizeChars_of_tabFree hjoined]
  rcases released_or_holdsOn hplain hends with ⟨hreleased, hgoesOn⟩ | hholds
  · simp only [hgoesOn, emit_eq_ok_append, plain_eq_word_iff hsome before.length]
    constructor
    · rintro ⟨hunmarked, hdashes⟩
      exact ⟨hreleased, hunmarked, htab, hdashes⟩
    · rintro ⟨-, hverbatim⟩
      exact ⟨hverbatim.unmarked, hverbatim.notEnd⟩
  · constructor
    · rintro ⟨token, hkind, hvalue, hfound⟩
      exact absurd hfound (hholds.not_verbatim hkind hvalue)
    · rintro ⟨hreleased, -⟩
      exact absurd hreleased hholds.not_released

end PipeShell.Token
