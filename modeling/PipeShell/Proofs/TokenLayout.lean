import Mathlib.Data.List.Chain
import PipeShell.Proofs.PrintedPipelines

namespace PipeShell.Token

structure BareChar where
  char : Char
  escaped : Bool
  escaped_of_mark : char ∈ marks → escaped = true

def BareChar.text (bare : BareChar) : List Char :=
  if bare.escaped then ['\\', bare.char] else [bare.char]

inductive Segment where
  | bare (chars : List BareChar) (nonempty : chars ≠ [])
  | single (chars : List Char) (unquoted : '\'' ∉ chars)
  | double (chars : List Char)

namespace Segment

def text : Segment → List Char
  | .bare chars _ => chars.flatMap BareChar.text
  | .single chars _ => '\'' :: chars ++ ['\'']
  | .double chars => '"' :: Token.escaped chars ++ ['"']

/-- The characters that the segment stands for. -/
def chars : Segment → List Char
  | .bare chars _ => chars.map BareChar.char
  | .single chars _ => chars
  | .double chars => chars

def isQuoted : Segment → Bool
  | .bare _ _ => false
  | .single _ _ => true
  | .double _ => true

end Segment

structure Word where
  segments : List Segment
  nonempty : segments ≠ []

namespace Word

def text (word : Word) : List Char := word.segments.flatMap Segment.text

def value (word : Word) :
    String := String.ofList (word.segments.flatMap Segment.chars)

def quoted (word : Word) : Bool := word.segments.any Segment.isQuoted

end Word

inductive Operator where
  | pipe
  | redirectIn
  | redirectOut
  | redirectAppend
  deriving DecidableEq, Repr

namespace Operator

def kind : Operator → Kind
  | .pipe => .pipe
  | .redirectIn => .redirectIn
  | .redirectOut => .redirectOut
  | .redirectAppend => .redirectAppend

def text : Operator → String
  | .pipe => "|"
  | .redirectIn => "<"
  | .redirectOut => ">"
  | .redirectAppend => ">>"

/-- Two of these run together if nothing is between them. -/
def isArrow : Operator → Bool
  | .redirectOut => true
  | .redirectAppend => true
  | _ => false

end Operator

inductive Item where
  | operator (symbol : Operator)
  | word (spelling : Word)

namespace Item

def text : Item → List Char
  | .operator symbol => symbol.text.toList
  | .word spelling => spelling.text

/-- The token that the item becomes if it stands at a position. -/
def token (position : Nat) : Item → Token
  | .operator symbol => Token.operator symbol.kind symbol.text position
  | .word spelling =>
      { kind :=
          if spelling.value = "--" ∧ spelling.quoted = false then .endOfOptions
          else .word
        value := spelling.value
        span := ⟨position, spelling.text.length⟩
        quoted := spelling.quoted }

def NeedSpace : Item → Item → Prop
  | .word _, .word _ => True
  | .operator left, .operator right => left.isArrow = true ∧ right.isArrow = true
  | _, _ => False

instance : (left right : Item) → Decidable (left.NeedSpace right)
  | .word _, .word _ => .isTrue trivial
  | .operator _, .operator _ => inferInstanceAs (Decidable (_ ∧ _))
  | .word _, .operator _ => .isFalse id
  | .operator _, .word _ => .isFalse id

def TabFree : Item → Prop
  | .operator _ => True
  | .word spelling => Text.TabFree spelling.value

instance : (item : Item) → Decidable item.TabFree
  | .operator _ => .isTrue trivial
  | .word spelling => inferInstanceAs (Decidable (Text.TabFree spelling.value))

end Item

/-- An item, and the number of spaces before it. -/
structure SpacedItem where
  gap : Nat
  item : Item

def SpacedItem.text (placed : SpacedItem) : List Char :=
  List.replicate placed.gap ' ' ++ placed.item.text

structure Layout where
  items : List SpacedItem
  trailing : Nat

namespace Layout

def chars (layout : Layout) : List Char :=
  layout.items.flatMap SpacedItem.text ++ List.replicate layout.trailing ' '

def text (layout : Layout) : String := String.ofList layout.chars

def tokensFrom (position : Nat) : List SpacedItem → List Token
  | [] => []
  | placed :: rest =>
      placed.item.token (position + placed.gap) ::
        tokensFrom (position + placed.text.length) rest

def tokens (layout : Layout) : List Token := tokensFrom 0 layout.items

def Spaced (layout : Layout) : Prop :=
  layout.items.IsChain fun left right => left.item.NeedSpace right.item →
    0 < right.gap

instance (layout : Layout) : Decidable layout.Spaced :=
  inferInstanceAs (Decidable (layout.items.IsChain _))

def TabFree (layout : Layout) : Prop := ∀ placed ∈ layout.items, placed.item.TabFree

instance (layout : Layout) : Decidable layout.TabFree :=
  inferInstanceAs (Decidable (∀ placed ∈ layout.items, placed.item.TabFree))

end Layout

private theorem singleQuoted_chars (draft : Draft) (opened position : Nat)
    {chars : List Char} (hunquoted : '\'' ∉ chars) (rest : List Char) :
    singleQuoted draft opened position (chars ++ '\'' :: rest) =
      plain (some { draft with chars := chars.reverse ++ draft.chars })
        (position + chars.length + 1) rest := by
  induction chars generalizing draft position with
  | nil => rw [List.nil_append, singleQuoted, if_pos rfl]; rfl
  | cons c chars ih =>
      rw [List.mem_cons, not_or] at hunquoted
      rw [List.cons_append, singleQuoted, if_neg (Ne.symm hunquoted.1),
        ih _ _ hunquoted.2]
      simp [Draft.push, Nat.add_comm, Nat.add_left_comm]

private theorem BareChar.plain_text (bare : BareChar) (word : Option Draft)
    (position : Nat) (rest : List Char) :
    plain word position (bare.text ++ rest) =
      plain (some ((draftAt word position).extend [bare.char] false))
        (position + bare.text.length) rest := by
  have hextend : ∀ draft : Draft, draft.extend [bare.char] false =
      draft.push bare.char := by
    intro draft
    simp [Draft.extend, Draft.push]
  rw [hextend]
  unfold BareChar.text
  by_cases hescaped : bare.escaped = true
  · rw [if_pos hescaped]
    exact plain_backslash word position bare.char rest
  · rw [if_neg hescaped]
    apply plain_ordinary
    intro hmark
    exact hescaped (bare.escaped_of_mark hmark)

private theorem plain_bareChars {chars : List BareChar} (hnonempty : chars ≠ [])
    (word : Option Draft) (position : Nat) (rest : List Char) :
    plain word position (chars.flatMap BareChar.text ++ rest) =
      plain (some ((draftAt word position).extend (chars.map BareChar.char) false))
        (position + (chars.flatMap BareChar.text).length) rest := by
  induction chars generalizing word position with
  | nil => exact absurd rfl hnonempty
  | cons bare chars ih =>
      rw [List.flatMap_cons, List.append_assoc, bare.plain_text]
      cases chars with
      | nil => simp
      | cons next chars =>
          rw [ih (List.cons_ne_nil next chars), draftAt, Option.getD_some,
            Draft.extend_extend, List.length_append, Nat.add_assoc]
          rfl

private theorem Segment.plain_text (segment : Segment) (word : Option Draft)
    (position : Nat) (rest : List Char) :
    plain word position (segment.text ++ rest) =
      plain (some ((draftAt word position).extend segment.chars segment.isQuoted))
        (position + segment.text.length) rest := by
  cases segment with
  | bare chars hnonempty => exact plain_bareChars hnonempty word position rest
  | single chars hunquoted =>
      have hplace : position + (Segment.single chars hunquoted).text.length =
          position + 1 + chars.length + 1 := by
        simp [Segment.text]
        omega
      rw [hplace, Segment.text, List.append_assoc, List.cons_append,
        List.singleton_append, plain_singleQuote, singleQuoted_chars _ _ _ hunquoted]
      simp [Draft.quote, Draft.extend, Segment.chars, Segment.isQuoted]
  | double chars =>
      have hplace : position + (Segment.double chars).text.length =
          position + 1 + (Token.escaped chars).length + 1 := by
        simp [Segment.text]
        omega
      rw [hplace, Segment.text, List.append_assoc, List.cons_append,
        List.singleton_append, plain_doubleQuote, doubleQuoted_escaped]
      simp [Draft.quote, Draft.extend, Segment.chars, Segment.isQuoted]

private theorem plain_segments {segments : List Segment} (hnonempty : segments ≠ [])
    (word : Option Draft) (position : Nat) (rest : List Char) :
    plain word position (segments.flatMap Segment.text ++ rest) =
      plain (some ((draftAt word position).extend (segments.flatMap Segment.chars)
        (segments.any Segment.isQuoted)))
        (position + (segments.flatMap Segment.text).length) rest := by
  induction segments generalizing word position with
  | nil => exact absurd rfl hnonempty
  | cons segment segments ih =>
      rw [List.flatMap_cons, List.append_assoc, segment.plain_text]
      cases segments with
      | nil => simp
      | cons next segments =>
          rw [ih (List.cons_ne_nil next segments), draftAt, Option.getD_some,
            Draft.extend_extend, List.length_append, Nat.add_assoc]
          rfl

private theorem Word.token_extend (word : Word) (position : Nat) :
    ((draftAt none position).extend (word.segments.flatMap Segment.chars)
      word.quoted).token
        (position + word.text.length) =
      (Item.word word).token position := by
  simp only [Draft.token, Draft.extend, draftAt, Option.getD_none, List.append_nil,
    List.reverse_reverse, Bool.false_or, Item.token, Nat.add_sub_cancel_left]
  change (if (decide (word.value = "--") && !word.quoted) = true then _ else _) = _
  by_cases hdashes : word.value = "--" ∧ word.quoted = false
  · rw [if_pos hdashes, if_pos (by simp [hdashes])]
    rw [hdashes.2]
    rfl
  · rw [if_neg hdashes, if_neg (by simpa using hdashes)]
    rfl

def Item.Stops : Item → List Char → Prop
  | .word _, rest => ∀ c ∈ rest.head?, c ∈ [' ', '|', '<', '>']
  | .operator .redirectOut, rest => rest.head? ≠ some '>'
  | .operator _, _ => True

theorem Item.plain_text {item : Item} {rest : List Char} (hstops : item.Stops rest)
    (position : Nat) :
    plain none position (item.text ++ rest) =
      emit [item.token position]
        (plain none (position + item.text.length) rest) := by
  cases item with
  | word word =>
      rw [Item.text, Word.text, plain_segments word.nonempty, ← Word.text,
        ← Word.quoted, plain_of_stop _ _ hstops, word.token_extend]
  | operator operator =>
      cases operator with
      | pipe => exact plain_pipe none position rest
      | redirectIn => exact plain_redirectIn none position rest
      | redirectOut => exact plain_redirectOut none position hstops
      | redirectAppend => exact plain_redirectAppend none position rest

private theorem BareChar.head?_text (bare : BareChar) :
    ∃ c ∉ [' ', '|', '<', '>'], bare.text.head? = some c := by
  unfold BareChar.text
  by_cases hescaped : bare.escaped = true
  · rw [if_pos hescaped]
    exact ⟨'\\', by decide, rfl⟩
  · rw [if_neg hescaped]
    refine ⟨bare.char, ?_, rfl⟩
    intro hmem
    apply hescaped
    apply bare.escaped_of_mark
    exact List.mem_append_left ['"', '\'', '\\'] hmem

private theorem Segment.head?_text (segment : Segment) :
    ∃ c ∉ [' ', '|', '<', '>'], segment.text.head? = some c := by
  cases segment with
  | bare chars hnonempty =>
      obtain ⟨bare, chars, rfl⟩ := List.exists_cons_of_ne_nil hnonempty
      obtain ⟨c, hordinary, hhead⟩ := bare.head?_text
      refine ⟨c, hordinary, ?_⟩
      rw [Segment.text, List.flatMap_cons, List.head?_append, hhead]
      rfl
  | single chars hunquoted => exact ⟨'\'', by decide, rfl⟩
  | double chars => exact ⟨'"', by decide, rfl⟩

theorem Word.head?_text (word : Word) :
    ∃ c ∉ [' ', '|', '<', '>'], word.text.head? = some c := by
  obtain ⟨segment, segments, hsegments⟩ := List.exists_cons_of_ne_nil word.nonempty
  obtain ⟨c, hordinary, hhead⟩ := segment.head?_text
  refine ⟨c, hordinary, ?_⟩
  rw [Word.text, hsegments, List.flatMap_cons, List.head?_append, hhead]
  rfl

theorem Item.stops_of_head {rest : List Char} (hspace : ∀ c ∈ rest.head?, c = ' ')
    (item : Item) : item.Stops rest := by
  cases item with
  | word word =>
      intro c hc
      rw [hspace c hc]
      exact List.mem_cons_self
  | operator operator =>
      cases operator with
      | redirectOut =>
          intro hhead
          exact absurd (hspace '>' hhead) (by decide)
      | pipe | redirectIn | redirectAppend => trivial

private theorem Item.stops_of_spacedItem {left : Item} {right : SpacedItem}
    (hspace : left.NeedSpace right.item → 0 < right.gap) (rest : List Char) :
    left.Stops (right.text ++ rest) := by
  obtain ⟨gap, item⟩ := right
  cases gap with
  | succ gap =>
      apply Item.stops_of_head
      intro c hc
      exact (Option.some.inj hc).symm
  | zero =>
      have hdirect : ¬left.NeedSpace item :=
        fun hneed => Nat.lt_irrefl 0 (hspace hneed)
      cases item with
      | word word =>
          obtain ⟨c, hordinary, hhead⟩ := word.head?_text
          have hfirst : (SpacedItem.text ⟨0, .word word⟩ ++ rest).head? =
              some c := by
            simp [SpacedItem.text, Item.text, hhead]
          cases left with
          | word left => exact absurd trivial hdirect
          | operator left =>
              cases left with
              | redirectOut =>
                  rw [Item.Stops, hfirst]
                  rintro ⟨⟩
                  exact hordinary (by decide)
              | pipe | redirectIn | redirectAppend => trivial
      | operator operator =>
          cases left with
          | word left =>
              intro c hc
              cases operator <;> cases hc <;> decide
          | operator left =>
              cases left with
              | redirectOut =>
                  cases operator with
                  | pipe => exact (by decide : some '|' ≠ some '>')
                  | redirectIn => exact (by decide : some '<' ≠ some '>')
                  | redirectOut | redirectAppend => exact absurd ⟨rfl, rfl⟩ hdirect
              | pipe | redirectIn | redirectAppend => trivial

theorem plain_spaces (position count : Nat) (rest : List Char) :
    plain none position (List.replicate count ' ' ++ rest) =
      plain none (position + count) rest := by
  induction count generalizing position with
  | zero => rfl
  | succ count ih =>
      rw [List.replicate_succ, List.cons_append, plain_space, closing, emit_nil, ih,
        Nat.add_assoc, Nat.add_comm 1]

private theorem Layout.plain_items {items : List SpacedItem}
    (hspaced : items.IsChain fun left right => left.item.NeedSpace right.item →
      0 < right.gap)
    (trailing position : Nat) :
    plain none position (items.flatMap SpacedItem.text ++
      List.replicate trailing ' ') =
      .ok (Layout.tokensFrom position items) := by
  induction items generalizing position with
  | nil =>
      have hend := plain_spaces position trailing []
      rw [List.append_nil] at hend
      rw [List.flatMap_nil, List.nil_append, hend]
      rfl
  | cons placed items ih =>
      have hstops : placed.item.Stops
          (items.flatMap SpacedItem.text ++ List.replicate trailing ' ') := by
        cases items with
        | nil =>
            apply Item.stops_of_head
            intro c hc
            rw [List.flatMap_nil, List.nil_append] at hc
            exact List.eq_of_mem_replicate (List.mem_of_mem_head? hc)
        | cons next items =>
            rw [List.isChain_cons_cons] at hspaced
            rw [List.flatMap_cons, List.append_assoc]
            exact Item.stops_of_spacedItem hspaced.1 _
      rw [List.flatMap_cons, List.append_assoc, SpacedItem.text, List.append_assoc,
        plain_spaces, Item.plain_text hstops, ih hspaced.tail]
      simp [emit, Except.map, Layout.tokensFrom, SpacedItem.text, Nat.add_assoc]

private theorem Segment.tab_notMem_text {segment : Segment}
    (hfree : '\t' ∉ segment.chars) :
    '\t' ∉ segment.text := by
  cases segment with
  | bare chars hnonempty =>
      intro hmem
      obtain ⟨bare, hbare, hchar⟩ := List.mem_flatMap.mp hmem
      unfold BareChar.text at hchar
      have hsame : '\t' = bare.char := by
        split at hchar
        · simpa using hchar
        · simpa using hchar
      exact hfree (hsame ▸ List.mem_map_of_mem hbare)
  | single chars hunquoted =>
      simpa [Segment.text, Segment.chars] using hfree
  | double chars =>
      have hescaped : '\t' ∉ Token.escaped chars := notMem_escaped (by decide) hfree
      simpa [Segment.text] using hescaped

private theorem Item.tab_notMem_text {item : Item} (hfree : item.TabFree) :
    '\t' ∉ item.text := by
  cases item with
  | operator operator => cases operator <;> decide
  | word word =>
      rw [Item.TabFree, Text.TabFree, Word.value, String.toList_ofList] at hfree
      intro hmem
      obtain ⟨segment, hsegment, hchar⟩ := List.mem_flatMap.mp hmem
      refine Segment.tab_notMem_text (fun htab => ?_) hchar
      exact hfree (List.mem_flatMap.mpr ⟨segment, hsegment, htab⟩)

private theorem Layout.tab_notMem_chars {layout : Layout} (hfree : layout.TabFree) :
    '\t' ∉ layout.chars := by
  have hspaces : ∀ count, '\t' ∉ List.replicate count ' ' := by
    intro count hmem
    exact absurd (List.eq_of_mem_replicate hmem) (by decide)
  intro hmem
  rcases List.mem_append.mp hmem with hmem | hmem
  · obtain ⟨placed, hplaced, hchar⟩ := List.mem_flatMap.mp hmem
    rcases List.mem_append.mp hchar with hchar | hchar
    · exact hspaces _ hchar
    · exact Item.tab_notMem_text (hfree placed hplaced) hchar
  · exact hspaces _ hmem

/-- A word with all its characters in double quotes. -/
def SpacedItem.ofString (word : String) : SpacedItem :=
  ⟨1, .word ⟨[.double word.toList], List.cons_ne_nil _ _⟩⟩

private theorem tokensFrom_ofString (position : Nat) (words : List String) :
    (Layout.tokensFrom position (words.map SpacedItem.ofString)).map
        (fun token => (token.kind, token.value)) =
      words.map fun word => (.word, word) := by
  induction words generalizing position with
  | nil => rfl
  | cons word words ih =>
      rw [List.map_cons, Layout.tokensFrom, List.map_cons, ih]
      simp [SpacedItem.ofString, Item.token, Word.value, Word.quoted, Segment.chars,
        Segment.isQuoted]

/-- The tokens of a line are its items, whichever way each of them is written. So
there is a line for every list of words. -/
theorem tokenize_layout :
    (∀ layout : Layout, layout.Spaced → layout.TabFree →
      tokenize layout.text = .ok layout.tokens) ∧
    ∀ words : List String, (∀ word ∈ words, Text.TabFree word) →
      ∃ text tokens, tokenize text = .ok tokens ∧
        tokens.map (fun token => (token.kind, token.value)) =
          words.map fun word => (.word, word) := by
  have hread : ∀ layout : Layout, layout.Spaced → layout.TabFree →
      tokenize layout.text = .ok layout.tokens := by
    intro layout hspaced hfree
    rw [tokenize, Layout.text, String.toList_ofList,
      tokenizeChars_of_tabFree (Layout.tab_notMem_chars hfree)]
    exact Layout.plain_items hspaced layout.trailing 0
  refine ⟨hread, ?_⟩
  intro words hfree
  have hspaced : Layout.Spaced ⟨words.map SpacedItem.ofString, 0⟩ := by
    apply (List.isChain_map SpacedItem.ofString).mpr
    exact (List.pairwise_of_forall fun _ _ _ => Nat.one_pos).isChain
  have htabs : Layout.TabFree ⟨words.map SpacedItem.ofString, 0⟩ := by
    intro placed hplaced
    obtain ⟨word, hword, rfl⟩ := List.mem_map.mp hplaced
    simpa [SpacedItem.ofString, Item.TabFree, Text.TabFree, Word.value,
      Segment.chars]
      using hfree word hword
  exact ⟨_, _, hread _ hspaced htabs, tokensFrom_ofString 0 words⟩

/-- A word in three styles, two dashes in quotes and behind a backslash, and arrows
in a row. -/
def mixedLayout : Layout :=
  { items :=
      [ ⟨2, .word ⟨[.bare [⟨'a', false, by decide⟩, ⟨' ', true, by decide⟩]
        (by decide),
          .single ['\\', '"'] (by decide), .double ['"', '\'', '\\']], by decide⟩⟩,
        ⟨0, .operator .pipe⟩,
        ⟨0, .word ⟨[.single ['-', '-'] (by decide)], by decide⟩⟩,
        ⟨1, .word ⟨[.bare [⟨'-', true, by decide⟩, ⟨'-', false, by decide⟩]
          (by decide)], by decide⟩⟩,
        ⟨0, .operator .redirectAppend⟩,
        ⟨1, .operator .redirectOut⟩,
        ⟨0, .word ⟨[.double []], by decide⟩⟩ ]
    trailing := 3 }

theorem tokenize_mixedLayout :
    mixedLayout.text = "  a\\ '\\\"'\"\\\"'\\\\\"|'--' \\-->> >\"\"   " ∧
      tokenize mixedLayout.text = .ok mixedLayout.tokens ∧
      mixedLayout.tokens.map (fun token => (token.kind, token.value)) =
        [(.word, "a \\\"\"'\\"), (.pipe, "|"), (.word, "--"), (.endOfOptions, "--"),
          (.redirectAppend, ">>"), (.redirectOut, ">"), (.word, "")] :=
  ⟨by decide, tokenize_layout.1 mixedLayout (by decide) (by decide), by decide⟩

end PipeShell.Token
