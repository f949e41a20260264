import Mathlib.Data.List.Induction
import PipeShell.Proofs.Basic
import PipeShell.Proofs.TokenizerStates

namespace PipeShell.Token

inductive Mode where
  | plain
  | escaping
  | single
  | double
  | doubleEscaping
  deriving DecidableEq, Repr

namespace Mode

def next : Mode → Char → Mode
  | .plain, c =>
      if c = '\\' then .escaping
      else if c = '\'' then .single
      else if c = '"' then .double
      else .plain
  | .escaping, _ => .plain
  | .single, c => if c = '\'' then .plain else .single
  | .double, c => if c = '"' then .plain else if c = '\\' then .doubleEscaping
        else .double
  | .doubleEscaping, _ => .double

def after (text : List Char) : Mode := text.foldl next .plain

private theorem after_concat (text : List Char) (c : Char) :
    after (text ++ [c]) = (after text).next c :=
  List.foldl_append

end Mode

/-- The automaton has left the plain mode at a character, and has not come back. -/
structure LeavesAt (text : List Char) (c : Char) (index : Nat) : Prop where
  char : text[index]? = some c
  before : Mode.after (text.take index) = .plain
  since : ∀ count, index < count → count ≤ text.length →
    Mode.after (text.take count) ≠ .plain

inductive Cause where
  | tab
  | escapeAtEnd
  | unclosedSingle
  | unclosedDouble
  deriving DecidableEq, Repr

namespace Cause

/-- What the message says before the position. -/
def text : Cause → String
  | .tab => "Tab character is not allowed in input at position "
  | .escapeAtEnd => "Escape character at end of input at position "
  | .unclosedSingle => "Unclosed single quote starting at position "
  | .unclosedDouble => "Unclosed double quote starting at position "

/-- The cause is found at an index. A tab comes before all others. -/
def At (text : List Char) (index : Nat) : Cause → Prop
  | .tab => text[index]? = some '\t' ∧ '\t' ∉ text.take index
  | .escapeAtEnd =>
      '\t' ∉ text ∧ Mode.after text = .escaping ∧ text[index]? = some '\\' ∧
        index + 1 = text.length
  | .unclosedSingle =>
      '\t' ∉ text ∧ Mode.after text = .single ∧ LeavesAt text '\'' index
  | .unclosedDouble =>
      '\t' ∉ text ∧ (Mode.after text = .double ∨ Mode.after text = .doubleEscaping) ∧
        LeavesAt text '"' index

def error (index : Nat) : Cause → ParseError
  | .tab => .tab index
  | .escapeAtEnd => .escapeAtEnd index
  | .unclosedSingle => .unclosedSingle index
  | .unclosedDouble => .unclosedDouble index

private theorem toFailure_error (cause : Cause) (index : Nat) :
    (cause.error index).toFailure = .parse (cause.text ++ toString index)
    (some index) [] := by
  cases cause <;> rfl

end Cause

variable {text : List Char} {index other : Nat}

theorem LeavesAt.lt_length {c : Char} (hleaves : LeavesAt text c index) :
    index < text.length :=
  (List.getElem?_eq_some_iff.mp hleaves.char).1

private theorem LeavesAt.unique {c d : Char} (hleaves : LeavesAt text c index)
    (hother : LeavesAt text d other) : index = other := by
  rcases Nat.lt_trichotomy index other with hlt | heq | hgt
  · exact absurd hother.before
      (hleaves.since other hlt (Nat.le_of_lt hother.lt_length))
  · exact heq
  · exact absurd hleaves.before
      (hother.since index hgt (Nat.le_of_lt hleaves.lt_length))

theorem Cause.At.not_tabFree (htab : Cause.tab.At text index) : '\t' ∈ text :=
  List.mem_of_getElem? htab.1

private theorem Cause.At.unique {cause cause' : Cause} (hcause : cause.At text index)
    (hcause' : cause'.At text other) : cause = cause' ∧ index = other := by
  cases cause with
  | tab =>
      have hmem := hcause.not_tabFree
      cases cause' with
      | tab =>
          refine ⟨rfl, ?_⟩
          rcases Nat.lt_trichotomy index other with hlt | heq | hgt
          · exact absurd (mem_take_of_getElem? hcause.1 hlt) hcause'.2
          · exact heq
          · exact absurd (mem_take_of_getElem? hcause'.1 hgt) hcause.2
      | escapeAtEnd => exact absurd hmem hcause'.1
      | unclosedSingle => exact absurd hmem hcause'.1
      | unclosedDouble => exact absurd hmem hcause'.1
  | escapeAtEnd =>
      obtain ⟨hfree, hmode, -, hlast⟩ := hcause
      cases cause' with
      | tab => exact absurd hcause'.not_tabFree hfree
      | escapeAtEnd => exact ⟨rfl, Nat.succ.inj (hlast.trans hcause'.2.2.2.symm)⟩
      | unclosedSingle => simp [At, hmode] at hcause'
      | unclosedDouble => simp [At, hmode] at hcause'
  | unclosedSingle =>
      obtain ⟨hfree, hmode, hleaves⟩ := hcause
      cases cause' with
      | tab => exact absurd hcause'.not_tabFree hfree
      | escapeAtEnd => simp [At, hmode] at hcause'
      | unclosedSingle => exact ⟨rfl, hleaves.unique hcause'.2.2⟩
      | unclosedDouble => simp [At, hmode] at hcause'
  | unclosedDouble =>
      obtain ⟨hfree, hmode, hleaves⟩ := hcause
      cases cause' with
      | tab => exact absurd hcause'.not_tabFree hfree
      | escapeAtEnd =>
          rcases hmode with hmode | hmode <;> simp [At, hmode] at hcause'
      | unclosedSingle =>
          rcases hmode with hmode | hmode <;> simp [At, hmode] at hcause'
      | unclosedDouble => exact ⟨rfl, hleaves.unique hcause'.2.2⟩

namespace State

def mode : State → Mode
  | .plain _ _ => .plain
  | .arrow _ => .plain
  | .escaping _ _ => .escaping
  | .single _ _ _ => .single
  | .double _ _ _ => .double
  | .doubleEscaping _ _ _ => .doubleEscaping

/-- The character at which the plain mode was left, and where it stands. -/
def left? : State → Option (Char × Nat)
  | .plain _ _ => none
  | .arrow _ => none
  | .escaping _ start => some ('\\', start)
  | .single _ opened _ => some ('\'', opened)
  | .double _ opened _ => some ('"', opened)
  | .doubleEscaping _ opened _ => some ('"', opened)

private theorem mode_stepPlain (word : Option Draft) (position : Nat) (c : Char) :
    (stepPlain word position c).2.mode = Mode.next .plain c := by
  unfold stepPlain
  rw [Mode.next]
  by_cases hslash : c = '\\'
  · rw [if_pos hslash, if_pos hslash]
    rfl
  rw [if_neg hslash, if_neg hslash]
  by_cases hsingle : c = '\''
  · subst hsingle
    rfl
  rw [if_neg hsingle, if_neg hsingle]
  by_cases hdouble : c = '"'
  · subst hdouble
    rfl
  rw [if_neg hdouble, if_neg hdouble]
  repeat' split
  all_goals rfl

private theorem mode_step (state : State) (c : Char) :
    (state.step c).2.mode = state.mode.next c := by
  cases state with
  | plain word position => exact mode_stepPlain word position c
  | arrow start =>
      rw [step]
      by_cases hdouble : c = '>'
      · subst hdouble
        rfl
      · rw [if_neg hdouble]
        exact mode_stepPlain none (start + 1) c
  | escaping word start => rfl
  | single draft opened position =>
      rw [step, mode, Mode.next]
      split <;> rfl
  | double draft opened position =>
      rw [step, mode, Mode.next]
      split
      · rfl
      · split <;> rfl
  | doubleEscaping draft opened start =>
      rw [step]
      split <;> rfl

private theorem mode_ne_plain {state : State} {left : Char × Nat}
    (hleft : state.left? = some left) :
    state.mode ≠ .plain := by
  cases state with
  | plain word position => cases hleft
  | arrow start => cases hleft
  | escaping word start => exact nofun
  | single draft opened position => exact nofun
  | double draft opened position => exact nofun
  | doubleEscaping draft opened start => exact nofun

private theorem left?_stepPlain {word : Option Draft} {position : Nat} {c : Char}
    {left : Char × Nat} (hleft : (stepPlain word position c).2.left? = some left) :
    left = (c, position) := by
  unfold stepPlain at hleft
  split at hleft
  · next hslash => rw [hslash]; exact (Option.some.inj hleft).symm
  split at hleft
  · cases hleft
  split at hleft
  · cases hleft
  split at hleft
  · cases hleft
  split at hleft
  · cases hleft
  split at hleft
  · next hdouble => rw [hdouble]; exact (Option.some.inj hleft).symm
  split at hleft
  · next hsingle => rw [hsingle]; exact (Option.some.inj hleft).symm
  · cases hleft

theorem left?_step {state : State} {c : Char} {left : Char × Nat}
    (hleft : (state.step c).2.left? = some left) :
    (state.mode = .plain ∧ left = (c, state.position)) ∨
      state.left? = some left := by
  cases state with
  | plain word position => exact .inl ⟨rfl, left?_stepPlain hleft⟩
  | arrow start =>
      rw [step] at hleft
      split at hleft
      · cases hleft
      · exact .inl ⟨rfl, left?_stepPlain hleft⟩
  | escaping word start => cases hleft
  | single draft opened position =>
      rw [step] at hleft
      split at hleft
      · cases hleft
      · exact .inr hleft
  | double draft opened position =>
      rw [step] at hleft
      split at hleft
      · cases hleft
      · split at hleft <;> exact .inr hleft
  | doubleEscaping draft opened start =>
      rw [step] at hleft
      split at hleft <;> exact .inr hleft

end State

def stateAfter (text : List Char) : State := ((Scan.start 0).readAll text).state

theorem stateAfter_concat (text : List Char) (c : Char) :
    stateAfter (text ++ [c]) = ((stateAfter text).step c).2 := by
  unfold stateAfter
  rw [Scan.readAll_concat]
  rfl

theorem position_stateAfter (text : List Char) :
    (stateAfter text).position = text.length := by
  rw [stateAfter, Scan.position_readAll]
  exact Nat.zero_add _

theorem mode_stateAfter (text : List Char) :
    (stateAfter text).mode = Mode.after text := by
  induction text using List.reverseRecOn with
  | nil => rfl
  | append_singleton text c ih =>
      rw [stateAfter_concat, State.mode_step, ih, Mode.after_concat]

theorem LeavesAt.concat {c d : Char} (hleaves : LeavesAt text c index)
    (haway : Mode.after (text ++ [d]) ≠ .plain) :
    LeavesAt (text ++ [d]) c index where
  char := by
    rw [List.getElem?_append_left hleaves.lt_length]
    exact hleaves.char
  before := by
    rw [List.take_append_of_le_length (Nat.le_of_lt hleaves.lt_length)]
    exact hleaves.before
  since count hcount hlength := by
    rcases Nat.lt_or_ge text.length count with hall | hfew
    · rw [List.take_of_length_le (by rw [List.length_append]; exact hall)]
      exact haway
    · rw [List.take_append_of_le_length hfew]
      exact hleaves.since count hcount hfew

private theorem leavesAt_concat {c : Char} (hplain : Mode.after text = .plain)
    (haway : Mode.after (text ++ [c]) ≠ .plain) :
    LeavesAt (text ++ [c]) c text.length where
  char := List.getElem?_concat_length
  before := by
    rw [List.take_left]
    exact hplain
  since count hcount _ := by
    rw [List.take_of_length_le (by rw [List.length_append]; exact hcount)]
    exact haway

private theorem leavesAt_of_left? {c : Char}
    (hleft : (stateAfter text).left? = some (c, index)) :
    LeavesAt text c index := by
  induction text using List.reverseRecOn with
  | nil => cases hleft
  | append_singleton text d ih =>
      have haway := State.mode_ne_plain hleft
      rw [mode_stateAfter] at haway
      rw [stateAfter_concat] at hleft
      rcases State.left?_step hleft with ⟨hplain, hnow⟩ | hbefore
      · rw [mode_stateAfter] at hplain
        rw [position_stateAfter] at hnow
        cases hnow
        exact leavesAt_concat hplain haway
      · exact (ih hbefore).concat haway

theorem plain_error_iff {error : ParseError} :
    plain none 0 text = .error error ↔ (stateAfter text).finish = .error error := by
  rw [plain_eq_finish]
  exact emit_eq_error_iff

/-- The state at the end of the line tells the cause. -/
theorem exists_cause {error : ParseError} (hfree : '\t' ∉ text)
    (hend : (stateAfter text).finish = .error error) :
    ∃ cause index, Cause.At text index cause ∧ error = cause.error index := by
  have hmode := mode_stateAfter text
  have hposition := position_stateAfter text
  have hleaves (c : Char) (index : Nat) := @leavesAt_of_left? text index c
  generalize stateAfter text = state at hend hmode hposition hleaves
  cases state with
  | plain word position => cases hend
  | arrow start => cases hend
  | escaping word start =>
      cases hend
      exact ⟨.escapeAtEnd, start,
        ⟨hfree, hmode.symm, (hleaves _ _ rfl).char, hposition⟩, rfl⟩
  | single draft opened position =>
      cases hend
      exact ⟨.unclosedSingle, opened, ⟨hfree, hmode.symm, hleaves _ _ rfl⟩, rfl⟩
  | double draft opened position =>
      cases hend
      exact ⟨.unclosedDouble, opened, ⟨hfree, .inl hmode.symm, hleaves _ _ rfl⟩, rfl⟩
  | doubleEscaping draft opened start =>
      cases hend
      exact ⟨.unclosedDouble, opened, ⟨hfree, .inr hmode.symm, hleaves _ _ rfl⟩, rfl⟩

private theorem finish_fails_iff (state : State) :
    (∃ error, state.finish = .error error) ↔ state.mode ≠ .plain := by
  cases state with
  | plain word position => exact ⟨nofun, fun haway => absurd rfl haway⟩
  | arrow start => exact ⟨nofun, fun haway => absurd rfl haway⟩
  | escaping word start => exact ⟨fun _ => nofun, fun _ => ⟨_, rfl⟩⟩
  | single draft opened position => exact ⟨fun _ => nofun, fun _ => ⟨_, rfl⟩⟩
  | double draft opened position => exact ⟨fun _ => nofun, fun _ => ⟨_, rfl⟩⟩
  | doubleEscaping draft opened start => exact ⟨fun _ => nofun, fun _ => ⟨_, rfl⟩⟩

theorem tokenizeChars_of_tab (htab : '\t' ∈ text) :
    ∃ index, Cause.tab.At text index ∧ tokenizeChars text = .error (.tab index) := by
  obtain ⟨index, hindex⟩ := findIdx?_of_tab htab
  obtain ⟨hlength, hchar, hearlier⟩ := List.findIdx?_eq_some_iff_getElem.mp hindex
  refine ⟨index, ⟨?_, ?_⟩, by rw [tokenizeChars, hindex]⟩
  · rw [List.getElem?_eq_getElem hlength]
    exact congrArg some (of_decide_eq_true hchar)
  · intro hmem
    obtain ⟨earlier, hlt, heq⟩ := List.mem_take_iff_getElem.mp hmem
    exact hearlier earlier (by omega) (decide_eq_true heq)

theorem tokenizeChars_fails_iff (text : List Char) :
    (∃ error, tokenizeChars text = .error error) ↔ '\t' ∈ text ∨
      Mode.after text ≠ .plain := by
  by_cases htab : '\t' ∈ text
  · obtain ⟨index, -, hfails⟩ := tokenizeChars_of_tab htab
    exact ⟨fun _ => .inl htab, fun _ => ⟨_, hfails⟩⟩
  · rw [tokenizeChars_of_tabFree htab, ← mode_stateAfter, ← finish_fails_iff]
    simp only [plain_error_iff, htab, false_or]

private theorem tokenizeChars_error_iff {error : ParseError} :
    tokenizeChars text = .error error ↔
      ∃ cause index, Cause.At text index cause ∧ error = cause.error index := by
  have hcause {error : ParseError} (hfails : tokenizeChars text = .error error) :
      ∃ cause index, Cause.At text index cause ∧ error = cause.error index := by
    by_cases htab : '\t' ∈ text
    · obtain ⟨index, hindex, hfirst⟩ := tokenizeChars_of_tab htab
      exact ⟨.tab, index, hindex, Except.error.inj (hfails.symm.trans hfirst)⟩
    · rw [tokenizeChars_of_tabFree htab, plain_error_iff] at hfails
      exact exists_cause htab hfails
  refine ⟨hcause, ?_⟩
  rintro ⟨cause, index, hindex, rfl⟩
  have haway : '\t' ∈ text ∨ Mode.after text ≠ .plain := by
    cases cause with
    | tab => exact .inl hindex.not_tabFree
    | escapeAtEnd => exact .inr (by simp [hindex.2.1])
    | unclosedSingle => exact .inr (by simp [hindex.2.1])
    | unclosedDouble =>
        exact .inr (by rcases hindex.2.1 with hmode | hmode <;> simp [hmode])
  obtain ⟨error, hfails⟩ := (tokenizeChars_fails_iff text).mpr haway
  obtain ⟨cause', index', hindex', rfl⟩ := hcause hfails
  obtain ⟨rfl, rfl⟩ := hindex.unique hindex'
  exact hfails

/-- A text cannot be read exactly if it has a tab or the automaton does not end in
the plain mode. What is raised then names the one cause there is and its place. -/
theorem tokenize_fails_iff (text : String) :
    ((∃ error, tokenize text = .error error) ↔
        '\t' ∈ text.toList ∨ Mode.after text.toList ≠ .plain) ∧
      ∀ failure, (tokenize text).mapError ParseError.toFailure = .error failure ↔
        ∃ cause index, Cause.At text.toList index cause ∧
          failure = .parse (cause.text ++ toString index) (some index) [] := by
  refine ⟨tokenizeChars_fails_iff text.toList, fun failure => ?_⟩
  constructor
  · intro hraised
    cases hfails : tokenize text with
    | ok tokens =>
        rw [hfails] at hraised
        cases hraised
    | error error =>
        rw [hfails] at hraised
        obtain ⟨cause, index, hindex, rfl⟩ := tokenizeChars_error_iff.mp hfails
        exact ⟨cause, index, hindex,
          (Except.error.inj hraised).symm.trans (cause.toFailure_error index)⟩
  · rintro ⟨cause, index, hindex, rfl⟩
    have hfails : tokenize text = .error (cause.error index) :=
      tokenizeChars_error_iff.mpr ⟨cause, index, hindex, rfl⟩
    rw [hfails, ← cause.toFailure_error index]
    rfl

end PipeShell.Token
