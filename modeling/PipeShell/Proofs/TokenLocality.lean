import PipeShell.Proofs.TokenizerStates

namespace PipeShell

/-- The same error, found that many characters further on. -/
def ParseError.shift (count : Nat) : ParseError → ParseError
  | .tab n => .tab (count + n)
  | .escapeAtEnd n => .escapeAtEnd (count + n)
  | .unclosedDouble n => .unclosedDouble (count + n)
  | .unclosedSingle n => .unclosedSingle (count + n)
  | .pipeAfterRedirection n => .pipeAfterRedirection (count + n)
  | .emptyBeforePipe n => .emptyBeforePipe (count + n)
  | .emptyAfterPipe => .emptyAfterPipe
  | .pathExpected symbol n => .pathExpected symbol (count + n)
  | .nameMissing => .nameMissing
  | .badOption shown n => .badOption shown (count + n)

private theorem ParseError.position?_shift (error : ParseError) (count : Nat) :
    (error.shift count).position? = error.position?.map (count + ·) := by
  cases error <;> rfl

namespace Token

/-- The same token, that many characters further on. -/
def shift (count : Nat) (token : Token) : Token :=
  { token with span := ⟨count + token.span.start, token.span.length⟩ }

/-- The same result for a text that stands that many characters further on. -/
def shifted (count : Nat) :
    Except ParseError (List Token) → Except ParseError (List Token)
  | .ok tokens => .ok (tokens.map (shift count))
  | .error error => .error (error.shift count)

private theorem shifted_emit (count : Nat) (tokens : List Token)
    (result : Except ParseError (List Token)) :
    shifted count (emit tokens result) = emit (tokens.map (shift count))
      (shifted count result) := by
  cases result with
  | error error => rfl
  | ok later => exact congrArg Except.ok List.map_append

def Draft.shift (count : Nat) (draft : Draft) : Draft :=
  { draft with start := count + draft.start }

private theorem Draft.token_shift (count : Nat) (draft : Draft) (stop : Nat) :
    (draft.shift count).token (count + stop) = (draft.token stop).shift count := by
  unfold Draft.token Draft.shift
  dsimp only
  rw [Nat.add_sub_add_left]
  split <;> rfl

theorem draftAt_shift (count : Nat) (word : Option Draft) (position : Nat) :
    draftAt (word.map (Draft.shift count)) (count + position) =
      (draftAt word position).shift count := by
  cases word <;> rfl

theorem closing_shift (count : Nat) (word : Option Draft) (position : Nat) :
    closing (word.map (Draft.shift count)) (count + position) =
      (closing word position).map (Token.shift count) := by
  cases word with
  | none => rfl
  | some draft => exact congrArg ([·]) (draft.token_shift count position)

namespace State

def shift (count : Nat) : State → State
  | .plain word position => .plain (word.map (Draft.shift count)) (count + position)
  | .arrow start => .arrow (count + start)
  | .escaping word start => .escaping (word.map (Draft.shift count)) (count + start)
  | .single draft opened position =>
      .single (draft.shift count) (count + opened) (count + position)
  | .double draft opened position =>
      .double (draft.shift count) (count + opened) (count + position)
  | .doubleEscaping draft opened start =>
      .doubleEscaping (draft.shift count) (count + opened) (count + start)

private theorem stepPlain_shift (count : Nat) (word : Option Draft) (position : Nat)
    (c : Char) :
    stepPlain (word.map (Draft.shift count)) (count + position) c =
      ((stepPlain word position c).1.map (Token.shift count),
        (stepPlain word position c).2.shift count) := by
  unfold stepPlain
  rw [closing_shift, draftAt_shift]
  split
  · rfl
  split
  · rfl
  split
  · rfl
  split
  · rw [List.map_append]
    rfl
  split
  · rw [List.map_append]
    rfl
  split
  · rfl
  split
  · rfl
  · rfl

private theorem step_shift (count : Nat) (state : State) (c : Char) :
    (state.shift count).step c =
      ((state.step c).1.map (Token.shift count), (state.step c).2.shift count) := by
  cases state with
  | plain word position => exact stepPlain_shift count word position c
  | arrow start =>
      have hplain := stepPlain_shift count none (start + 1) c
      rw [shift, step, step]
      split
      · rfl
      · exact congrArg (fun read : List Token × State =>
          (operator .redirectOut ">" (count + start) :: read.1, read.2)) hplain
  | escaping word start =>
      rw [shift, step, draftAt_shift]
      rfl
  | single draft opened position =>
      rw [shift, step, step]
      split <;> rfl
  | double draft opened position =>
      rw [shift, step, step]
      split
      · rfl
      · split <;> rfl
  | doubleEscaping draft opened start =>
      rw [shift, step, step]
      split <;> rfl

private theorem finish_shift (count : Nat) (state : State) :
    (state.shift count).finish = shifted count state.finish := by
  cases state with
  | plain word position =>
      exact congrArg Except.ok (closing_shift count word position)
  | arrow start => rfl
  | escaping word start => rfl
  | single draft opened position => rfl
  | double draft opened position => rfl
  | doubleEscaping draft opened start => rfl

end State

namespace Scan

def shift (count : Nat) (scan : Scan) : Scan :=
  ⟨scan.tokens.map (Token.shift count), scan.state.shift count⟩

private theorem readAll_shift (count : Nat) (scan : Scan) (chars : List Char) :
    (scan.shift count).readAll chars = (scan.readAll chars).shift count := by
  induction chars generalizing scan with
  | nil => rfl
  | cons c rest ih =>
      have hread : (scan.shift count).read c = (scan.read c).shift count := by
        unfold read shift
        rw [State.step_shift, List.map_append]
      rw [readAll, List.foldl_cons, hread]
      exact ih (scan.read c)

private theorem finish_shift (count : Nat) (scan : Scan) :
    (scan.shift count).finish = shifted count scan.finish := by
  rw [finish, finish, shifted_emit]
  exact congrArg _ (State.finish_shift count scan.state)

end Scan

theorem plain_shift (count position : Nat) (chars : List Char) :
    plain none (count + position) chars =
      shifted count (plain none position chars) := by
  have hstart : Scan.start (count + position) = (Scan.start position).shift count :=
    rfl
  rw [plain_eq_finish, hstart, Scan.readAll_shift, Scan.finish_shift,
    ← plain_eq_finish]

/-- What ends everything before it, whatever follows. -/
def separators : List Char := [' ', '|', '<']

def separatorTokens (c : Char) (position : Nat) : List Token :=
  if c = '|' then [operator .pipe "|" position]
  else if c = '<' then [operator .redirectIn "<" position]
  else []

variable {c : Char} {tokens : List Token}

/-- A separator has the same effect as the end of the line, and then begins anew. -/
theorem State.step_separator {state : State} (hend : state.finish = .ok tokens)
    (hc : c ∈ separators) :
    state.step c =
      (tokens ++ separatorTokens c state.position,
        .plain none (state.position + 1)) := by
  simp only [separators, List.mem_cons, List.not_mem_nil, or_false] at hc
  cases state with
  | plain word position =>
      cases hend
      rcases hc with rfl | rfl | rfl
      · exact congrArg (·, _) (List.append_nil _).symm
      · rfl
      · rfl
  | arrow start =>
      cases hend
      rcases hc with rfl | rfl | rfl <;> rfl
  | escaping word start => cases hend
  | single draft opened position => cases hend
  | double draft opened position => cases hend
  | doubleEscaping draft opened start => cases hend

theorem plain_join {first : List Char} (hread : plain none 0 first = .ok tokens)
    (hc : c ∈ separators) (second : List Char) :
    plain none 0 (first ++ c :: second) =
      emit (tokens ++ separatorTokens c first.length)
        (shifted (first.length + 1) (plain none 0 second)) := by
  rw [plain_eq_finish] at hread
  generalize hscan : (Scan.start 0).readAll first = scan at hread
  obtain ⟨later, hend, rfl⟩ := emit_ok hread
  have hposition : scan.state.position = first.length := by
    rw [← hscan, Scan.position_readAll]
    exact Nat.zero_add _
  have hseparated : scan.read c =
      ⟨scan.tokens ++ later ++ separatorTokens c first.length,
        .plain none (first.length + 1)⟩ := by
    rw [Scan.read, State.step_separator hend hc, hposition, List.append_assoc]
  rw [plain_eq_finish, Scan.readAll_append, hscan, ← plain_shift]
  change ((scan.read c).readAll second).finish = _
  rw [hseparated, Scan.finish_readAll]
  rfl

theorem tokenizeChars_join {first : List Char}
    (hread : tokenizeChars first = .ok tokens) (hc : c ∈ separators)
    (second : List Char) : tokenizeChars (first ++ c :: second) =
      emit (tokens ++ separatorTokens c first.length)
        (shifted (first.length + 1) (tokenizeChars second)) := by
  obtain ⟨hfree, hplain⟩ := tokenizeChars_ok hread
  have hother : decide (c = '\t') = false := by
    simp only [separators, List.mem_cons, List.not_mem_nil, or_false] at hc
    rcases hc with rfl | rfl | rfl <;> rfl
  have hindex : (first ++ c :: second).findIdx? (· = '\t') =
      (second.findIdx? (· = '\t')).map (first.length + 1 + ·) := by
    rw [List.findIdx?_append, findIdx?_of_tabFree hfree, List.findIdx?_cons, hother]
    cases second.findIdx? (· = '\t') with
    | none => rfl
    | some position =>
        simp
        omega
  rw [tokenizeChars, tokenizeChars, hindex]
  cases second.findIdx? (· = '\t') with
  | none => exact plain_join hplain hc second
  | some position => rfl

/-- If the first of two texts can be read, the two joined by a separator can be read
exactly if the second can. The tokens of the second, or the error in it, are found
that much further on. -/
theorem tokenize_join {first : String} (hread : tokenize first = .ok tokens)
    (hc : c ∈ separators) (second : String) :
    let joined := first ++ String.singleton c ++ second
    ((∃ found, tokenize joined = .ok found) ↔ ∃ found, tokenize second = .ok found) ∧
      (∀ found, tokenize second = .ok found →
        tokenize joined = .ok (tokens ++ separatorTokens c first.length ++
          found.map (shift (first.length + 1)))) ∧
      ∀ error, tokenize second = .error error →
        tokenize joined = .error (error.shift (first.length + 1)) ∧
          (error.shift (first.length + 1)).position? =
            error.position?.map (first.length + 1 + ·) := by
  intro joined
  have hjoined : tokenize joined =
      emit (tokens ++ separatorTokens c first.length)
        (shifted (first.length + 1) (tokenize second)) := by
    have hsplit : joined.toList = first.toList ++ c :: second.toList := by
      simp [joined]
    rw [tokenize, hsplit, tokenizeChars_join hread hc, String.length_toList]
    rfl
  rw [hjoined]
  cases tokenize second with
  | error error =>
      refine ⟨⟨?_, ?_⟩, nofun, ?_⟩
      · rintro ⟨found, ⟨⟩⟩
      · rintro ⟨found, ⟨⟩⟩
      · rintro _ ⟨⟩
        exact ⟨rfl, error.position?_shift _⟩
  | ok found =>
      refine ⟨⟨fun _ => ⟨found, rfl⟩, fun _ => ⟨_, rfl⟩⟩, ?_, nofun⟩
      rintro _ ⟨⟩
      rfl

theorem tokenize_join_unclosed :
    tokenize "cat 'a|b'>" = .ok
        [⟨.word, "cat", ⟨0, 3⟩, false⟩, ⟨.word, "a|b", ⟨4, 5⟩, true⟩,
          ⟨.redirectOut, ">", ⟨9, 1⟩, false⟩] ∧
      tokenize ("cat 'a|b'>" ++ String.singleton '|' ++ "grep \"x\\") =
        .error (.unclosedDouble 16) := by
  have hread : tokenize "cat 'a|b'>" = .ok
      [⟨.word, "cat", ⟨0, 3⟩, false⟩, ⟨.word, "a|b", ⟨4, 5⟩, true⟩,
        ⟨.redirectOut, ">", ⟨9, 1⟩, false⟩] := rfl
  have hunclosed : tokenize "grep \"x\\" = .error (.unclosedDouble 5) := rfl
  exact ⟨hread, ((tokenize_join hread (by decide) "grep \"x\\").2.2 _ hunclosed).1⟩

end Token

end PipeShell
