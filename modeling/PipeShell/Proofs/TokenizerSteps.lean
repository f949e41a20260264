import PipeShell.Token

namespace PipeShell.Token

theorem emit_emit (first second : List Token)
    (result : Except ParseError (List Token)) :
    emit first (emit second result) = emit (first ++ second) result := by
  cases result with
  | error error => rfl
  | ok tokens =>
      exact congrArg Except.ok (List.append_assoc first second tokens).symm

theorem emit_nil (result : Except ParseError (List Token)) :
    emit [] result = result := by
  cases result <;> rfl

theorem emit_ok {result : Except ParseError (List Token)}
    {before tokens : List Token} (hemit : emit before result = .ok tokens) :
    ∃ later, result = .ok later ∧ tokens = before ++ later := by
  cases result with
  | error error => cases hemit
  | ok later =>
      cases hemit
      exact ⟨later, rfl, rfl⟩

theorem emit_eq_error_iff {result : Except ParseError (List Token)}
    {before : List Token} {error : ParseError} :
    emit before result = .error error ↔ result = .error error := by
  cases result with
  | error other => rfl
  | ok later => exact ⟨nofun, nofun⟩

/-- Outside quotes these stand for themselves only behind a backslash. -/
def marks : List Char := [' ', '|', '<', '>', '"', '\'', '\\']

section Plain

variable (word : Option Draft) (position : Nat) (rest : List Char)

/-- Only a backslash and the first half of `>>` look at the next character. -/
theorem plain_cons {c : Char} {rest : List Char} (hslash : c ≠ '\\')
    (hsingle : c = '>' → rest.head? ≠ some '>') :
    plain word position (c :: rest) =
      if c = ' ' then emit (closing word position) (plain none (position + 1) rest)
      else if c = '|' then
        emit (closing word position ++ [operator .pipe "|" position])
          (plain none (position + 1) rest)
      else if c = '<' then
        emit (closing word position ++ [operator .redirectIn "<" position])
          (plain none (position + 1) rest)
      else if c = '>' then
        emit (closing word position ++ [operator .redirectOut ">" position])
          (plain none (position + 1) rest)
      else if c = '"' then
        doubleQuoted (draftAt word position).quote position (position + 1) rest
      else if c = '\'' then
        singleQuoted (draftAt word position).quote position (position + 1) rest
      else plain (some ((draftAt word position).push c)) (position + 1) rest := by
  refine plain.eq_5 word position c rest (fun heq => absurd heq hslash)
    (fun _ _ heq => absurd heq hslash) ?_
  intro after heq hrest
  subst hrest
  exact hsingle heq rfl

theorem plain_space :
    plain word position (' ' :: rest) =
      emit (closing word position) (plain none (position + 1) rest) :=
  plain_cons word position (by decide) nofun

theorem plain_pipe :
    plain word position ('|' :: rest) =
      emit (closing word position ++ [operator .pipe "|" position])
        (plain none (position + 1) rest) :=
  plain_cons word position (by decide) nofun

theorem plain_redirectIn :
    plain word position ('<' :: rest) =
      emit (closing word position ++ [operator .redirectIn "<" position])
        (plain none (position + 1) rest) :=
  plain_cons word position (by decide) nofun

theorem plain_redirectOut {rest : List Char} (hsingle : rest.head? ≠ some '>') :
    plain word position ('>' :: rest) =
      emit (closing word position ++ [operator .redirectOut ">" position])
        (plain none (position + 1) rest) :=
  plain_cons word position (by decide) fun _ => hsingle

theorem plain_redirectAppend :
    plain word position ('>' :: '>' :: rest) =
      emit (closing word position ++ [operator .redirectAppend ">>" position])
        (plain none (position + 2) rest) :=
  plain.eq_4 word position rest

theorem plain_doubleQuote :
    plain word position ('"' :: rest) =
      doubleQuoted (draftAt word position).quote position (position + 1) rest :=
  plain_cons word position (by decide) nofun

theorem plain_singleQuote :
    plain word position ('\'' :: rest) =
      singleQuoted (draftAt word position).quote position (position + 1) rest :=
  plain_cons word position (by decide) nofun

theorem plain_backslash (c : Char) (rest : List Char) :
    plain word position ('\\' :: c :: rest) =
      plain (some ((draftAt word position).push c)) (position + 2) rest :=
  plain.eq_3 word position c rest

theorem plain_ordinary {c : Char} (hordinary : c ∉ marks) :
    plain word position (c :: rest) =
      plain (some ((draftAt word position).push c)) (position + 1) rest := by
  simp only [marks, List.mem_cons, List.not_mem_nil, or_false, not_or] at hordinary
  obtain ⟨hspace, hpipe, hless, hgreater, hdouble, hsingle, hslash⟩ := hordinary
  rw [plain_cons word position hslash fun heq => absurd heq hgreater]
  rw [if_neg hspace, if_neg hpipe, if_neg hless, if_neg hgreater, if_neg hdouble,
    if_neg hsingle]

theorem plain_of_stop (draft : Draft) {rest : List Char}
    (hstop : ∀ c ∈ rest.head?, c ∈ [' ', '|', '<', '>']) :
    plain (some draft) position rest =
      emit [draft.token position] (plain none position rest) := by
  cases rest with
  | nil => rfl
  | cons c rest =>
      have hc := hstop c rfl
      simp only [List.mem_cons, List.not_mem_nil, or_false] at hc
      rcases hc with rfl | rfl | rfl | rfl
      · rw [plain_space, plain_space, emit_emit]
        rfl
      · rw [plain_pipe, plain_pipe, emit_emit]
        rfl
      · rw [plain_redirectIn, plain_redirectIn, emit_emit]
        rfl
      · by_cases hsingle : rest.head? = some '>'
        · obtain ⟨after, rfl⟩ := List.head?_eq_some_iff.mp hsingle
          rw [plain_redirectAppend, plain_redirectAppend, emit_emit]
          rfl
        · rw [plain_redirectOut _ _ hsingle, plain_redirectOut _ _ hsingle,
            emit_emit]
          rfl

end Plain

def Draft.extend (draft : Draft) (chars : List Char) (quoted : Bool) : Draft :=
  ⟨draft.start, chars.reverse ++ draft.chars, draft.quoted || quoted⟩

theorem Draft.extend_extend (draft : Draft) (first second : List Char)
    (quoted quoted' : Bool) :
    (draft.extend first quoted).extend second quoted' =
      draft.extend (first ++ second) (quoted || quoted') := by
  simp [Draft.extend, Bool.or_assoc]

private theorem Draft.token_of_unquoted {draft : Draft}
    (hquoted : draft.quoted = false) (stop : Nat) :
    draft.token stop =
      ⟨if draft.chars.reverse = ['-', '-'] then .endOfOptions else .word,
        String.ofList draft.chars.reverse, ⟨draft.start, stop - draft.start⟩,
        false⟩ := by
  have hdashes : String.ofList draft.chars.reverse = "--" ↔
      draft.chars.reverse = ['-', '-'] :=
    @String.ofList_inj _ ['-', '-']
  simp only [Draft.token, hquoted, hdashes]
  split <;> simp_all

theorem unmarked_of_all {text marks : List Char}
    (hall : text.all (· ∉ marks) = true) :
    ∀ c ∈ text, c ∉ marks :=
  fun c hc => of_decide_eq_true (List.all_eq_true.mp hall c hc)

theorem plain_unmarked {text : List Char} (hunmarked : ∀ c ∈ text, c ∉ marks)
    (draft : Draft) (position : Nat) (rest : List Char) :
    plain (some draft) position (text ++ rest) =
      plain (some (draft.extend text false)) (position + text.length) rest := by
  induction text generalizing draft position with
  | nil =>
      have hsame : draft.extend [] false = draft := by simp [Draft.extend]
      rw [hsame]
      rfl
  | cons c text ih =>
      obtain ⟨hc, htext⟩ := List.forall_mem_cons.mp hunmarked
      have hpush : (draft.push c).extend text false = draft.extend (c :: text)
          false := by
        simp [Draft.extend, Draft.push]
      rw [List.cons_append, plain_ordinary _ _ _ hc, ih htext, draftAt,
        Option.getD_some, hpush, List.length_cons, Nat.add_right_comm, Nat.add_assoc]

theorem plain_word {text rest : List Char} (hunmarked : ∀ c ∈ text, c ∉ marks)
    (hsome : text ≠ []) (position : Nat)
    (hstop : ∀ c ∈ rest.head?, c ∈ [' ', '|', '<', '>']) :
    plain none position (text ++ rest) =
      emit [⟨if text = ['-', '-'] then .endOfOptions else .word, String.ofList text,
          ⟨position, text.length⟩, false⟩]
            (plain none (position + text.length) rest) := by
  cases text with
  | nil => exact absurd rfl hsome
  | cons c text =>
      obtain ⟨hc, htext⟩ := List.forall_mem_cons.mp hunmarked
      rw [List.cons_append, plain_ordinary _ _ _ hc, plain_unmarked htext,
        plain_of_stop _ _ hstop, Draft.token_of_unquoted (by rfl)]
      simp [Draft.extend, Draft.push, draftAt, Nat.add_comm, Nat.add_left_comm]

/-- A character of a word as it stands between double quotes. -/
def escapeChar (c : Char) : List Char :=
  if c = '"' ∨ c = '\\' then ['\\', c] else [c]

def escaped (chars : List Char) : List Char :=
  chars.flatMap escapeChar

theorem notMem_escaped {c : Char} {chars : List Char} (hslash : c ≠ '\\')
    (habsent : c ∉ chars) : c ∉ escaped chars := by
  intro hmem
  obtain ⟨source, hsource, hchar⟩ := List.mem_flatMap.mp hmem
  unfold escapeChar at hchar
  split at hchar
  · rcases List.mem_cons.mp hchar with heq | hchar
    · exact hslash heq
    · exact habsent (List.mem_singleton.mp hchar ▸ hsource)
  · exact habsent (List.mem_singleton.mp hchar ▸ hsource)

theorem doubleQuoted_cons (draft : Draft) (opened position : Nat) {c : Char}
    {rest : List Char} (hplain : c = '\\' → rest.head? ≠ some '"' ∧
      rest.head? ≠ some '\\') :
    doubleQuoted draft opened position (c :: rest) =
      if c = '"' then plain (some draft) (position + 1) rest
      else doubleQuoted (draft.push c) opened (position + 1) rest := by
  apply doubleQuoted.eq_4
  · rintro more hc rfl
    exact (hplain hc).1 rfl
  · rintro more hc rfl
    exact (hplain hc).2 rfl

private theorem doubleQuoted_quote (draft : Draft) (opened position : Nat)
    (rest : List Char) :
    doubleQuoted draft opened position ('"' :: rest) =
      plain (some draft) (position + 1) rest :=
  doubleQuoted_cons draft opened position nofun

theorem doubleQuoted_escapeChar (draft : Draft) (opened position : Nat) (c : Char)
    (rest : List Char) :
    doubleQuoted draft opened position (escapeChar c ++ rest) =
      doubleQuoted (draft.push c) opened (position + (escapeChar c).length)
        rest := by
  unfold escapeChar
  by_cases hspecial : c = '"' ∨ c = '\\'
  · rw [if_pos hspecial]
    rcases hspecial with rfl | rfl
    · exact doubleQuoted.eq_2 draft opened position rest
    · exact doubleQuoted.eq_3 draft opened position rest
  · rw [if_neg hspecial]
    rw [not_or] at hspecial
    apply (doubleQuoted_cons draft opened position fun heq =>
      absurd heq hspecial.2).trans
    rw [if_neg hspecial.1]
    rfl

theorem doubleQuoted_escaped (draft : Draft) (opened position : Nat)
    (chars rest : List Char) :
    doubleQuoted draft opened position (escaped chars ++ '"' :: rest) =
      plain (some { draft with chars := chars.reverse ++ draft.chars })
        (position + (escaped chars).length + 1) rest := by
  induction chars generalizing draft position with
  | nil => exact doubleQuoted_quote draft opened position rest
  | cons c chars ih =>
      have hsplit : escaped (c :: chars) = escapeChar c ++ escaped chars :=
        List.flatMap_cons
      rw [hsplit, List.append_assoc, doubleQuoted_escapeChar, ih, List.length_append,
        List.reverse_cons, List.append_assoc, Nat.add_assoc position]
      rfl

theorem findIdx?_of_tabFree {text : List Char} (hfree : '\t' ∉ text) :
    text.findIdx? (· = '\t') = none := by
  rw [List.findIdx?_eq_none_iff]
  intro c hmem
  exact decide_eq_false fun heq => hfree (heq ▸ hmem)

theorem tokenizeChars_of_tabFree {text : List Char} (hfree : '\t' ∉ text) :
    tokenizeChars text = plain none 0 text := by
  rw [tokenizeChars, findIdx?_of_tabFree hfree]

theorem findIdx?_of_tab {text : List Char} (htab : '\t' ∈ text) :
    ∃ index, text.findIdx? (· = '\t') = some index := by
  apply Option.isSome_iff_exists.mp
  rw [List.findIdx?_isSome]
  exact List.any_eq_true.mpr ⟨'\t', htab, by simp⟩

theorem tokenizeChars_ok {text : List Char} {tokens : List Token}
    (hread : tokenizeChars text = .ok tokens) :
    '\t' ∉ text ∧ plain none 0 text = .ok tokens := by
  have hfree : '\t' ∉ text := by
    intro htab
    obtain ⟨index, hindex⟩ := findIdx?_of_tab htab
    rw [tokenizeChars, hindex] at hread
    cases hread
  exact ⟨hfree, tokenizeChars_of_tabFree hfree ▸ hread⟩

end PipeShell.Token
