import PipeShell.Proofs.TokenizerSteps

/-! The tokenizer, one character at a time. Between two characters it is in one of a
few states, and the state and the next character decide what it does. A `>` that
another may follow and a backslash are states of their own, so that it never needs to
look ahead. -/

namespace PipeShell.Token

/-- Where the tokenizer is between two characters, and what it keeps in mind. -/
inductive State where
  | plain (word : Option Draft) (position : Nat)
  | arrow (start : Nat)
  | escaping (word : Option Draft) (start : Nat)
  | single (draft : Draft) (opened position : Nat)
  | double (draft : Draft) (opened position : Nat)
  | doubleEscaping (draft : Draft) (opened start : Nat)

namespace State

def position : State → Nat
  | .plain _ position => position
  | .arrow start => start + 1
  | .escaping _ start => start + 1
  | .single _ _ position => position
  | .double _ _ position => position
  | .doubleEscaping _ _ start => start + 1

/-- Reads a character outside quotes. The tokens are those that are complete by
then. -/
def stepPlain (word : Option Draft) (position : Nat) (c : Char) :
    List Token × State :=
  if c = '\\' then ([], .escaping word position)
  else if c = '>' then (closing word position, .arrow position)
  else if c = ' ' then (closing word position, .plain none (position + 1))
  else if c = '|' then
    (closing word position ++ [operator .pipe "|" position],
      .plain none (position + 1))
  else if c = '<' then
    (closing word position ++ [operator .redirectIn "<" position],
      .plain none (position + 1))
  else if c = '"' then ([],
    .double (draftAt word position).quote position (position + 1))
  else if c = '\'' then ([],
    .single (draftAt word position).quote position (position + 1))
  else ([], .plain (some ((draftAt word position).push c)) (position + 1))

def step : State → Char → List Token × State
  | .plain word position, c => stepPlain word position c
  | .arrow start, c =>
      if c = '>' then ([operator .redirectAppend ">>" start],
        .plain none (start + 2))
      else (operator .redirectOut ">" start :: (stepPlain none (start + 1) c).1,
        (stepPlain none (start + 1) c).2)
  | .escaping word start, c =>
      ([], .plain (some ((draftAt word start).push c)) (start + 2))
  | .single draft opened position, c =>
      if c = '\'' then ([], .plain (some draft) (position + 1))
      else ([], .single (draft.push c) opened (position + 1))
  | .double draft opened position, c =>
      if c = '"' then ([], .plain (some draft) (position + 1))
      else if c = '\\' then ([], .doubleEscaping draft opened position)
      else ([], .double (draft.push c) opened (position + 1))
  | .doubleEscaping draft opened start, c =>
      if c = '"' ∨ c = '\\' then ([], .double (draft.push c) opened (start + 2))
      else ([], .double ((draft.push '\\').push c) opened (start + 2))

/-- What the end of the line makes of the state. -/
def finish : State → Except ParseError (List Token)
  | .plain word position => .ok (closing word position)
  | .arrow start => .ok [operator .redirectOut ">" start]
  | .escaping _ start => .error (.escapeAtEnd start)
  | .single _ opened _ => .error (.unclosedSingle opened)
  | .double _ opened _ => .error (.unclosedDouble opened)
  | .doubleEscaping _ opened _ => .error (.unclosedDouble opened)

/-- The tokenizer as it goes on from a state. What it has looked at but not used up
is put back. -/
def resume (rest : List Char) : State → Except ParseError (List Token)
  | .plain word position => Token.plain word position rest
  | .arrow start => Token.plain none start ('>' :: rest)
  | .escaping word start => Token.plain word start ('\\' :: rest)
  | .single draft opened position => singleQuoted draft opened position rest
  | .double draft opened position => doubleQuoted draft opened position rest
  | .doubleEscaping draft opened start =>
      doubleQuoted draft opened start ('\\' :: rest)

theorem resume_nil (state : State) : state.resume [] = state.finish := by
  cases state with
  | arrow start => exact plain_redirectOut none start nofun
  | doubleEscaping draft opened start =>
      exact doubleQuoted_cons draft opened start fun _ => ⟨nofun, nofun⟩
  | plain word position => rfl
  | escaping word start => rfl
  | single draft opened position => rfl
  | double draft opened position => rfl

theorem resume_stepPlain (word : Option Draft) (position : Nat) (c : Char)
    (rest : List Char) :
    Token.plain word position (c :: rest) =
      emit (stepPlain word position c).1
        ((stepPlain word position c).2.resume rest) := by
  unfold stepPlain
  by_cases hslash : c = '\\'
  · rw [if_pos hslash, hslash]
    exact (emit_nil _).symm
  rw [if_neg hslash]
  by_cases harrow : c = '>'
  · rw [if_pos harrow, harrow]
    cases word with
    | none => exact (emit_nil _).symm
    | some draft => exact plain_of_stop position draft (by simp)
  rw [if_neg harrow, plain_cons word position hslash fun heq => absurd heq harrow,
    if_neg harrow]
  split
  · rfl
  split
  · rfl
  split
  · rfl
  split
  · exact (emit_nil _).symm
  split
  · exact (emit_nil _).symm
  · exact (emit_nil _).symm

/-- Reading on from a state is reading one character, and then on from the state
after it. -/
theorem resume_cons (state : State) (c : Char) (rest : List Char) :
    state.resume (c :: rest) = emit (state.step c).1
      ((state.step c).2.resume rest) := by
  cases state with
  | plain word position => exact resume_stepPlain word position c rest
  | arrow start =>
      rw [step]
      by_cases hdouble : c = '>'
      · rw [if_pos hdouble, hdouble]
        exact plain_redirectAppend none start rest
      · rw [if_neg hdouble]
        have hsingle : (c :: rest).head? ≠ some '>' :=
          fun heq => hdouble (Option.some.inj heq)
        calc Token.plain none start ('>' :: c :: rest)
          _ = emit [operator .redirectOut ">" start]
            (Token.plain none (start + 1) (c :: rest)) :=
            plain_redirectOut none start hsingle
          _ = _ := by rw [resume_stepPlain, emit_emit]; rfl
  | escaping word start =>
      exact (plain_backslash word start c rest).trans (emit_nil _).symm
  | single draft opened position =>
      rw [step]
      rw [resume, singleQuoted]
      split <;> exact (emit_nil _).symm
  | double draft opened position =>
      rw [step]
      by_cases hslash : c = '\\'
      · rw [if_neg (by simp [hslash]), if_pos hslash, hslash]
        exact (emit_nil _).symm
      rw [if_neg hslash, resume, doubleQuoted_cons draft opened position fun heq =>
        absurd heq hslash]
      split <;> exact (emit_nil _).symm
  | doubleEscaping draft opened start =>
      rw [step, resume]
      by_cases hescaped : c = '"' ∨ c = '\\'
      · rw [if_pos hescaped]
        have hread := doubleQuoted_escapeChar draft opened start c rest
        rw [escapeChar, if_pos hescaped] at hread
        exact hread.trans (emit_nil _).symm
      · rw [if_neg hescaped]
        rw [not_or] at hescaped
        -- The backslash stands for itself, and so does the character after it.
        have hliteral : (c :: rest).head? ≠ some '"' ∧
            (c :: rest).head? ≠ some '\\' :=
          ⟨fun heq => hescaped.1 (Option.some.inj heq), fun heq =>
            hescaped.2 (Option.some.inj heq)⟩
        rw [doubleQuoted_cons draft opened start fun _ => hliteral,
          if_neg (by decide), doubleQuoted_cons _ opened (start + 1) fun heq =>
            absurd heq hescaped.2,
          if_neg hescaped.1]
        exact (emit_nil _).symm

private theorem position_stepPlain (word : Option Draft) (position : Nat)
    (c : Char) : (stepPlain word position c).2.position = position + 1 := by
  unfold stepPlain
  repeat' split
  all_goals rfl

private theorem position_step (state : State) (c : Char) :
    (state.step c).2.position = state.position + 1 := by
  cases state with
  | plain word position => exact position_stepPlain word position c
  | arrow start =>
      rw [step]
      split
      · rfl
      · exact position_stepPlain none (start + 1) c
  | escaping word start => rfl
  | single draft opened position => rw [step]; split <;> rfl
  | double draft opened position =>
      rw [step]
      split
      · rfl
      · split <;> rfl
  | doubleEscaping draft opened start => rw [step]; split <;> rfl

end State

structure Scan where
  tokens : List Token
  state : State

namespace Scan

/-- Nothing has been read of what begins at a position. -/
def start (position : Nat) : Scan := ⟨[], .plain none position⟩

def read (scan : Scan) (c : Char) : Scan :=
  ⟨scan.tokens ++ (scan.state.step c).1, (scan.state.step c).2⟩

def readAll (scan : Scan) (chars : List Char) : Scan := chars.foldl read scan

def finish (scan : Scan) : Except ParseError (List Token) :=
  emit scan.tokens scan.state.finish

theorem readAll_append (scan : Scan) (first second : List Char) :
    scan.readAll (first ++ second) = (scan.readAll first).readAll second :=
  List.foldl_append

theorem readAll_concat (scan : Scan) (chars : List Char) (c : Char) :
    scan.readAll (chars ++ [c]) = (scan.readAll chars).read c :=
  readAll_append scan chars [c]

theorem position_readAll (scan : Scan) (chars : List Char) :
    (scan.readAll chars).state.position = scan.state.position + chars.length := by
  induction chars generalizing scan with
  | nil => rfl
  | cons c rest ih =>
      have hstep : (scan.read c).state.position = scan.state.position + 1 :=
        State.position_step scan.state c
      rw [readAll, List.foldl_cons, ← readAll, ih, hstep, List.length_cons,
        Nat.add_assoc, Nat.add_comm 1]

theorem finish_readAll (scan : Scan) (chars : List Char) :
    (scan.readAll chars).finish = emit scan.tokens (scan.state.resume chars) := by
  induction chars generalizing scan with
  | nil => rw [State.resume_nil]; rfl
  | cons c rest ih =>
      rw [State.resume_cons, emit_emit]
      exact ih (scan.read c)

end Scan

theorem plain_eq_finish (position : Nat) (chars : List Char) :
    plain none position chars = ((Scan.start position).readAll chars).finish := by
  rw [Scan.finish_readAll]
  exact (emit_nil _).symm

end PipeShell.Token
