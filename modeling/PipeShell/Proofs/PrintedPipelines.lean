import PipeShell.Proofs.ParserSteps
import PipeShell.Proofs.TokenizerSteps

namespace PipeShell

namespace Token

def quoteWord (word : String) : String :=
  String.ofList ('"' :: escaped word.toList ++ ['"'])

inductive Piece where
  | word (value : String)
  | endOfOptions
  | pipe
  | redirectIn
  | redirectOut
  | redirectAppend

def Piece.text : Piece → String
  | .word value => quoteWord value
  | .endOfOptions => "--"
  | .pipe => "|"
  | .redirectIn => "<"
  | .redirectOut => ">"
  | .redirectAppend => ">>"

def Piece.printAll (pieces : List Piece) : String :=
  Text.join " " (pieces.map Piece.text)

end Token

open Token (Piece)

def Redirections.pieces (redirections : Redirections) : List Piece :=
  (match redirections.stdin with
    | none => []
    | some path => [.redirectIn, .word path]) ++
  (match redirections.stdout with
    | none => []
    | some output =>
        [if output.append then .redirectAppend else .redirectOut, .word output.path])

def Invocation.pieces (invocation : Invocation) : List Piece :=
  .word invocation.name ::
    (invocation.options.map fun occurrence => .word occurrence.describe) ++
    .endOfOptions :: invocation.arguments.map .word ++ invocation.redirections.pieces

def Invocation.print (invocation : Invocation) : String :=
  Piece.printAll invocation.pieces

def Pipeline.print (pipeline : Pipeline) : String :=
  Text.join " | " (pipeline.map Invocation.print)

def Text.TabFree (text : String) : Prop := '\t' ∉ text.toList

instance (text : String) : Decidable (Text.TabFree text) :=
  inferInstanceAs (Decidable ('\t' ∉ text.toList))

structure Occurrence.Printable (occurrence : Occurrence) : Prop where
  value_iff : occurrence.value.isSome = true ↔ occurrence.hasValue = true
  tabFree_name : Text.TabFree occurrence.name
  tabFree_value : ∀ value ∈ occurrence.value, Text.TabFree value
  long : occurrence.isLong = true → occurrence.name ≠ "" ∧
    '=' ∉ occurrence.name.toList
  short : occurrence.isLong = false →
    ∃ c, occurrence.name = String.ofList [c] ∧ c ≠ '-' ∧ c ≠ '=' ∧
      (occurrence.hasValue = false → c ≠ '.' ∧ Text.isDigit c = false)

/-- The first equals sign in the word of an option is the one before its value. -/
structure Occurrence.Spelled (occurrence : Occurrence) : Prop where
  value_iff : occurrence.value.isSome = true ↔ occurrence.hasValue = true
  long : occurrence.isLong = true → '=' ∉ occurrence.name.toList
  short : occurrence.isLong = false → ∃ c, occurrence.name = String.ofList [c] ∧
    c ≠ '='

theorem Occurrence.Spelled.value_eq_none {occurrence : Occurrence}
    (hspelled : occurrence.Spelled) (hvalue : occurrence.hasValue = false) :
    occurrence.value = none := by
  rw [← Option.not_isSome_iff_eq_none, hspelled.value_iff, hvalue]
  exact Bool.false_ne_true

private theorem Occurrence.Printable.spelled {occurrence : Occurrence}
    (hprint : occurrence.Printable) :
    occurrence.Spelled where
  value_iff := hprint.value_iff
  long hlong := (hprint.long hlong).2
  short hshort := by
    obtain ⟨c, hname, -, hequals, -⟩ := hprint.short hshort
    exact ⟨c, hname, hequals⟩

structure Invocation.Printable (invocation : Invocation) : Prop where
  tabFree_name : Text.TabFree invocation.name
  tabFree_arguments : ∀ argument ∈ invocation.arguments, Text.TabFree argument
  tabFree_stdin : ∀ path ∈ invocation.redirections.stdin, Text.TabFree path
  tabFree_stdout : ∀ output ∈ invocation.redirections.stdout,
    Text.TabFree output.path
  options : ∀ occurrence ∈ invocation.options, occurrence.Printable

/-- Only the last invocation may write to a file. -/
structure Pipeline.Printable (pipeline : Pipeline) : Prop where
  nonempty : pipeline ≠ []
  invocations : ∀ invocation ∈ pipeline, invocation.Printable
  stdout : ∀ invocation ∈ pipeline.dropLast, invocation.redirections.stdout = none

/-- An occurrence as it is read back: its value is attached and quoted, and stands
before all arguments. -/
def Occurrence.reread (occurrence : Occurrence) : Occurrence :=
  { occurrence with
    quoted := occurrence.hasValue
    spaced := false
    argumentIndex := 0 }

def Occurrence.rereadFrom (occurrence : Occurrence) (word : Token) : Occurrence :=
  { occurrence with
    quoted := occurrence.hasValue && word.quoted, spaced :=
      false, argumentIndex := 0 }

def Invocation.reread (invocation : Invocation) : Invocation :=
  { invocation with options := invocation.options.map Occurrence.reread }

namespace Token

/-- The token that a piece becomes if it stands at a position. -/
def Piece.token (position : Nat) (piece : Piece) : Token :=
  match piece with
  | .word value => ⟨.word, value, ⟨position, piece.text.length⟩, true⟩
  | .endOfOptions => ⟨.endOfOptions, "--", ⟨position, piece.text.length⟩, false⟩
  | .pipe => operator .pipe "|" position
  | .redirectIn => operator .redirectIn "<" position
  | .redirectOut => operator .redirectOut ">" position
  | .redirectAppend => operator .redirectAppend ">>" position

def Piece.tokens (position : Nat) : List Piece → List Token
  | [] => []
  | piece :: rest =>
      piece.token position :: Piece.tokens (position + piece.text.length + 1) rest

def Piece.next (position : Nat) : List Piece → Nat
  | [] => position
  | piece :: rest => Piece.next (position + piece.text.length + 1) rest

theorem Piece.tokens_append (position : Nat) (left right : List Piece) :
    Piece.tokens position (left ++ right) =
      Piece.tokens position left ++ Piece.tokens (Piece.next position left)
        right := by
  induction left generalizing position with
  | nil => rfl
  | cons piece rest ih =>
      rw [List.cons_append, Piece.tokens, ih]
      rfl

def Piece.kind : Piece → Kind
  | .word _ => .word
  | .endOfOptions => .endOfOptions
  | .pipe => .pipe
  | .redirectIn => .redirectIn
  | .redirectOut => .redirectOut
  | .redirectAppend => .redirectAppend

private theorem Piece.kind_token (position : Nat) (piece : Piece) :
    (piece.token position).kind = piece.kind := by
  cases piece <;> rfl

theorem Piece.forall_kind (P : Kind → Prop) {pieces : List Piece}
    (hall : ∀ piece ∈ pieces, P piece.kind) {position : Nat} :
    ∀ token ∈ Piece.tokens position pieces, P token.kind := by
  induction pieces generalizing position with
  | nil => nofun
  | cons piece rest ih =>
      intro token member
      rcases List.mem_cons.mp member with rfl | member
      · exact Piece.kind_token position piece ▸ hall piece List.mem_cons_self
      · exact ih (fun other member => hall other (List.mem_cons_of_mem _ member))
          token member

private theorem length_quoteWord (word : String) :
    (quoteWord word).length = (escaped word.toList).length + 2 := by
  rw [← String.length_toList, quoteWord, String.toList_ofList, List.length_append,
    List.length_cons, List.length_singleton]

private theorem plain_quoteWord (position : Nat) (word : String) (rest : List Char) :
    plain none position ((quoteWord word).toList ++ rest) =
      plain (some ⟨position, word.toList.reverse, true⟩)
        (position + (quoteWord word).length) rest := by
  have hplace : position + 1 + (escaped word.toList).length + 1 =
      position + ((escaped word.toList).length + 2) := by omega
  rw [length_quoteWord, quoteWord, String.toList_ofList, List.append_assoc,
    List.cons_append, plain_doubleQuote, List.singleton_append,
    doubleQuoted_escaped, hplace]
  simp only [draftAt, Option.getD_none, Draft.quote, List.append_nil]

private theorem plain_endOfOptions (position : Nat) (rest : List Char) :
    plain none position ("--".toList ++ rest) =
      plain (some ⟨position, ['-', '-'], false⟩) (position + 2) rest := by
  change plain none position ('-' :: '-' :: rest) = _
  rw [plain_ordinary _ _ _ (by decide), plain_ordinary _ _ _ (by decide)]
  rfl

theorem Piece.plain_text (position : Nat) (piece : Piece) {rest : List Char}
    (hstop : ∀ c ∈ rest.head?, c = ' ') :
    plain none position (piece.text.toList ++ rest) =
      emit [piece.token position]
        (plain none (position + piece.text.length) rest) := by
  have hword : ∀ c ∈ rest.head?, c ∈ [' ', '|', '<', '>'] := by
    intro c hc
    rw [hstop c hc]
    exact List.mem_cons_self
  cases piece with
  | word value =>
      have htoken : Draft.token ⟨position, value.toList.reverse, true⟩
          (position + (quoteWord value).length) = Piece.token position
            (.word value) := by
        simp [Draft.token, Piece.token, Piece.text]
      rw [Piece.text, plain_quoteWord, plain_of_stop _ _ hword, htoken]
  | endOfOptions =>
      have hdashes : String.ofList ['-', '-'] = "--" := rfl
      have hlength : "--".length = 2 := rfl
      have htoken : Draft.token ⟨position, ['-', '-'], false⟩ (position + 2) =
          Piece.token position .endOfOptions := by
        simp [Draft.token, hdashes, hlength, Piece.token, Piece.text]
      rw [Piece.text, plain_endOfOptions, plain_of_stop _ _ hword, htoken]
      rfl
  | pipe => exact plain_pipe none position rest
  | redirectIn => exact plain_redirectIn none position rest
  | redirectOut =>
      refine plain_redirectOut none position ?_
      intro hhead
      exact absurd (hstop '>' hhead) (by decide)
  | redirectAppend => exact plain_redirectAppend none position rest

theorem Piece.printAll_cons (piece : Piece) {rest : List Piece} (hrest : rest ≠ []) :
    (Piece.printAll (piece :: rest)).toList =
      piece.text.toList ++ ' ' :: (Piece.printAll rest).toList := by
  have hmap : rest.map Piece.text ≠ [] :=
    fun hnil => hrest (List.map_eq_nil_iff.mp hnil)
  rw [Piece.printAll, List.map_cons, Text.join,
    String.intercalate_cons_of_ne_nil hmap, String.toList_append,
    String.toList_append, List.append_assoc]
  rfl

private theorem Piece.plain_printAll (position : Nat) (pieces : List Piece) :
    plain none position (Piece.printAll pieces).toList =
      .ok (Piece.tokens position pieces) := by
  induction pieces generalizing position with
  | nil => rfl
  | cons piece rest ih =>
      by_cases hrest : rest = []
      · subst hrest
        have hlast : plain none position (piece.text.toList ++ []) = _ :=
          Piece.plain_text position piece nofun
        rw [List.append_nil] at hlast
        rw [Piece.printAll, List.map_cons, List.map_nil, Text.join,
          String.intercalate_singleton, hlast]
        rfl
      · rw [Piece.printAll_cons piece hrest,
          Piece.plain_text position piece (by simp), plain_space, ih]
        rfl

/-- The word of a piece, if it is one, has no tab. -/
def Piece.TabFree : Piece → Prop
  | .word value => Text.TabFree value
  | _ => True

private theorem Piece.TabFree.text {piece : Piece} (hfree : piece.TabFree) :
    '\t' ∉ piece.text.toList := by
  cases piece with
  | word value =>
      have hescaped := notMem_escaped (by decide : '\t' ≠ '\\') hfree
      rw [Piece.text, quoteWord, String.toList_ofList]
      intro hmem
      rcases List.mem_append.mp hmem with hmem | hmem
      · rcases List.mem_cons.mp hmem with heq | hmem
        · exact absurd heq (by decide)
        · exact hescaped hmem
      · exact absurd (List.mem_singleton.mp hmem) (by decide)
  | endOfOptions | pipe | redirectIn | redirectOut | redirectAppend => decide

private theorem Piece.tabFree_printAll {pieces : List Piece}
    (hfree : ∀ piece ∈ pieces, piece.TabFree) :
    '\t' ∉ (Piece.printAll pieces).toList := by
  induction pieces with
  | nil => decide
  | cons piece rest ih =>
      have hpiece := (hfree piece List.mem_cons_self).text
      by_cases hrest : rest = []
      · subst hrest
        rw [Piece.printAll, List.map_cons, List.map_nil, Text.join,
          String.intercalate_singleton]
        exact hpiece
      · have htail := ih fun other member =>
          hfree other (List.mem_cons_of_mem _ member)
        rw [Piece.printAll_cons piece hrest]
        intro hmem
        rcases List.mem_append.mp hmem with hmem | hmem
        · exact hpiece hmem
        · rcases List.mem_cons.mp hmem with heq | hmem
          · exact absurd heq (by decide)
          · exact htail hmem

theorem tokenize_printAll {pieces : List Piece}
    (hfree : ∀ piece ∈ pieces, piece.TabFree) :
    tokenize (Piece.printAll pieces) = .ok (Piece.tokens 0 pieces) := by
  rw [tokenize, tokenizeChars_of_tabFree (Piece.tabFree_printAll hfree)]
  exact Piece.plain_printAll 0 pieces

end Token

/-- The words of an invocation, each of which is quoted when it is printed. -/
def Invocation.words (invocation : Invocation) : List String :=
  invocation.name :: (invocation.options.map Occurrence.describe ++
    invocation.arguments ++ invocation.redirections.stdin.toList ++
    (invocation.redirections.stdout.map Output.path).toList)

theorem Invocation.of_mem_pieces {invocation : Invocation} {piece : Piece}
    (member : piece ∈ invocation.pieces) :
    (∃ word ∈ invocation.words, piece = .word word) ∨ piece = .endOfOptions ∨
      piece = .redirectIn ∨ (invocation.redirections.stdout.isSome = true ∧
        (piece = .redirectOut ∨ piece = .redirectAppend)) := by
  obtain ⟨name, arguments, options, ⟨stdin, stdout⟩⟩ := invocation
  simp only [Invocation.pieces, Redirections.pieces, List.mem_append, List.mem_cons,
    List.mem_map] at member
  rcases member with ((rfl | ⟨occurrence, hoption, rfl⟩) | rfl | ⟨argument,
    harg, rfl⟩) |
    hstdin | hstdout
  · exact .inl ⟨name, by simp [Invocation.words], rfl⟩
  · refine .inl ⟨_, ?_, rfl⟩
    simp only [Invocation.words, List.mem_cons, List.mem_append, List.mem_map]
    exact .inr (.inl (.inl (.inl ⟨occurrence, hoption, rfl⟩)))
  · exact .inr (.inl rfl)
  · exact .inl ⟨argument, by simp [Invocation.words, harg], rfl⟩
  · cases stdin with
    | none => cases hstdin
    | some path =>
        simp only [List.mem_cons, List.not_mem_nil, or_false] at hstdin
        rcases hstdin with rfl | rfl
        · exact .inr (.inr (.inl rfl))
        · exact .inl ⟨path, by simp [Invocation.words], rfl⟩
  · cases stdout with
    | none => cases hstdout
    | some output =>
        simp only [List.mem_cons, List.not_mem_nil, or_false] at hstdout
        rcases hstdout with rfl | rfl
        · refine .inr (.inr (.inr ⟨rfl, ?_⟩))
          cases output.append
          · exact .inl rfl
          · exact .inr rfl
        · exact .inl ⟨output.path, by simp [Invocation.words], rfl⟩

namespace Pipeline

def pieces : Pipeline → List Piece
  | [] => []
  | [invocation] => invocation.pieces
  | invocation :: rest => invocation.pieces ++ .pipe :: pieces rest

private theorem print_eq_printAll (pipeline : Pipeline) :
    print pipeline = Piece.printAll (pieces pipeline) := by
  induction pipeline with
  | nil => rfl
  | cons invocation rest ih =>
      cases rest with
      | nil =>
          rw [print, List.map_cons, List.map_nil, Text.join,
            String.intercalate_singleton]
          rfl
      | cons second rest =>
          have hleft : invocation.pieces.map Piece.text ≠ [] := nofun
          have hright : (Piece.pipe :: pieces (second :: rest)).map Piece.text ≠
              [] := nofun
          have hmore : (pieces (second :: rest)).map Piece.text ≠ [] := by
            cases rest <;> nofun
          have hsplit : Piece.printAll (pieces (invocation :: second :: rest)) =
              Piece.printAll invocation.pieces ++ " " ++
                ("|" ++ " " ++ Piece.printAll (pieces (second :: rest))) := by
            rw [pieces, Piece.printAll, List.map_append, Text.join,
              String.intercalate_append_of_ne_nil hleft hright, List.map_cons,
              String.intercalate_cons_of_ne_nil hmore]
            · rfl
            · nofun
          have hprint : print (invocation :: second :: rest) =
              invocation.print ++ " | " ++ print (second :: rest) :=
            String.intercalate_cons_of_ne_nil nofun
          have hbar : " | " = " " ++ ("|" ++ " ") := rfl
          rw [hprint, hsplit, ih, hbar, Invocation.print]
          simp only [String.append_assoc]

/-! The words of the options. -/

def valueChars (occurrence : Occurrence) : List Char :=
  if occurrence.hasValue then '=' :: (occurrence.value.getD "").toList else []

theorem toList_describe (occurrence : Occurrence) :
    occurrence.describe.toList =
      (if occurrence.isLong then ['-', '-'] else ['-']) ++ occurrence.name.toList ++
        valueChars occurrence := by
  have hdisplay : occurrence.display.toList =
      (if occurrence.isLong then ['-', '-'] else ['-']) ++
        occurrence.name.toList := by
    rw [Occurrence.display, String.toList_append]
    cases occurrence.isLong <;> rfl
  unfold Occurrence.describe valueChars
  cases occurrence.hasValue with
  | true =>
      simp only [if_true, String.toList_append, hdisplay, List.append_assoc]
      rfl
  | false => simp only [Bool.false_eq_true, if_false, hdisplay, List.append_nil]

theorem shape_long {occurrence : Occurrence} (hlong : occurrence.isLong = true) :
    Shape.of occurrence.describe =
      .long (occurrence.name.toList ++ valueChars occurrence) := by
  have hchars := toList_describe occurrence
  rw [hlong, if_pos rfl] at hchars
  unfold Shape.of
  rw [hchars]
  rfl

private theorem isNumeral_equals : isNumeral '=' = false := by decide

theorem shape_short {occurrence : Occurrence} {c : Char}
    (hshort : occurrence.isLong = false)
    (hname : occurrence.name = String.ofList [c]) (hdash : c ≠ '-')
    (hplain : occurrence.hasValue = false → c ≠ '.' ∧ Text.isDigit c = false) :
    Shape.of occurrence.describe = .short (c :: valueChars occurrence) := by
  have hchars : occurrence.describe.toList = '-' :: c :: valueChars occurrence := by
    rw [toList_describe, hshort, hname, String.toList_ofList]
    rfl
  have hnumber : isNumber occurrence.describe = false := by
    have hall : (c :: valueChars occurrence).all isNumeral = false := by
      unfold valueChars
      cases hvalue : occurrence.hasValue with
      | true => simp [isNumeral_equals]
      | false =>
          obtain ⟨hpoint, hdigit⟩ := hplain hvalue
          simp [isNumeral, hpoint, hdigit]
    rw [isNumber, hchars, isNumberChars]
    simp [hall]
  unfold Shape.of
  rw [hchars, hnumber]
  split
  · rename_i heq
    exact absurd (List.cons.inj (List.cons.inj heq).2).1 hdash
  · rename_i heq
    rw [← (List.cons.inj heq).2]
    rfl
  · rename_i hnone
    exact absurd rfl (hnone _)

theorem longOption_describe {occurrence : Occurrence} (hspelled : occurrence.Spelled)
    (hlong : occurrence.isLong = true)
    (hname : occurrence.hasValue = true → occurrence.name ≠ "") (word : Token)
    {next : Option Token} (hnext : valueFrom next = none) :
    longOption word (occurrence.name.toList ++ valueChars occurrence) next 0 =
      .ok (occurrence.rereadFrom word, false) := by
  have hequals := hspelled.long hlong
  obtain ⟨name, isLong, value, hasValue, quoted, spaced, index⟩ := occurrence
  cases hlong
  unfold longOption valueChars
  cases hasValue with
  | true =>
      obtain ⟨value, rfl⟩ := Option.isSome_iff_exists.mp (hspelled.value_iff.mpr rfl)
      have hchars : name.toList ≠ [] :=
        fun hnil => hname rfl (String.toList_eq_nil_iff.mp hnil)
      rw [if_pos rfl, Text.cutChars_append hequals]
      cases hlist : name.toList with
      | nil => exact absurd hlist hchars
      | cons c rest =>
          simp only [← hlist, String.ofList_toList, Option.getD_some]
          rfl
  | false =>
      obtain rfl : value = none := hspelled.value_eq_none rfl
      rw [if_neg nofun, List.append_nil, Text.cutChars_of_notMem hequals]
      simp only [hnext, String.ofList_toList]
      rfl

theorem shortOptions_describe {occurrence : Occurrence}
    (hspelled : occurrence.Spelled) (hshort : occurrence.isLong = false) {c : Char}
    (hname : occurrence.name = shortName c) (hequals : c ≠ '=') (word : Token)
    {next : Option Token} (hnext : valueFrom next = none) :
    shortOptions word (c :: valueChars occurrence) next 0 =
      .ok ([occurrence.rereadFrom word], false) := by
  have habsent : '=' ∉ [c] := fun hmem => hequals (List.mem_singleton.mp hmem).symm
  obtain ⟨name, isLong, value, hasValue, quoted, spaced, index⟩ := occurrence
  cases hshort
  cases hname
  unfold shortOptions valueChars
  cases hasValue with
  | true =>
      obtain ⟨value, rfl⟩ := Option.isSome_iff_exists.mp (hspelled.value_iff.mpr rfl)
      have hcut := Text.cutChars_append habsent value.toList
      rw [List.singleton_append] at hcut
      rw [if_pos rfl, Option.getD_some, hcut]
      simp only [String.ofList_toList]
      rfl
  | false =>
      obtain rfl : value = none := hspelled.value_eq_none rfl
      rw [if_neg nofun, Text.cutChars_of_notMem habsent]
      simp only [hnext]
      rfl

private theorem rereadFrom_token (occurrence : Occurrence) (position : Nat)
    (word : String) :
    occurrence.rereadFrom (Piece.token position (.word word)) =
      occurrence.reread := by
  simp only [Occurrence.rereadFrom, Piece.token, Bool.and_true]
  rfl

private theorem Draft.addWord_printed {draft : Draft}
    (hnamed : draft.name.isSome = true) (hopen : draft.optionsEnded = false)
    (hfirst : draft.arguments = []) {occurrence : Occurrence}
    (hprint : occurrence.Printable) (position : Nat) {next : Option Token}
    (hnext : valueFrom next = none) :
    draft.addWord (Piece.token position (.word occurrence.describe)) next =
      .ok (draft.addOptions [occurrence.reread], false) := by
  obtain ⟨name, hname⟩ := Option.isSome_iff_exists.mp hnamed
  have hvalue : (Piece.token position (.word occurrence.describe)).value =
      occurrence.describe :=
    rfl
  unfold Draft.addWord
  rw [hname, hopen, hfirst, hvalue]
  simp only [Bool.false_eq_true, if_false, List.length_nil]
  cases hlong : occurrence.isLong with
  | true =>
      rw [shape_long hlong]
      simp only [longOption_describe hprint.spelled hlong
        (fun _ => (hprint.long hlong).1) _ hnext, rereadFrom_token]
      rfl
  | false =>
      obtain ⟨c, hletter, hdash, hequals, hplain⟩ := hprint.short hlong
      rw [shape_short hlong hletter hdash hplain]
      simp only [shortOptions_describe hprint.spelled hlong hletter hequals _ hnext,
        rereadFrom_token]
      rfl

/-! The tokens of an invocation. -/

/-- A printed option starts with a dash, so no option takes it as a value. -/
theorem valueFrom_describe (occurrence : Occurrence) (position : Nat) :
    valueFrom (some (Piece.token position (.word occurrence.describe))) = none := by
  have hdash : occurrence.describe.toList.head? = some '-' := by
    rw [toList_describe]
    cases occurrence.isLong <;> rfl
  simp [valueFrom, isOptionValue, Piece.token, hdash]

private theorem Draft.scan_options {rest : List Token}
    (hrest : valueFrom rest.head? = none) {options : List Occurrence}
    (hprint : ∀ occurrence ∈ options, occurrence.Printable) {draft : Draft}
    (hnamed : draft.name.isSome = true) (hopen : draft.optionsEnded = false)
    (hfirst : draft.arguments = []) (position : Nat) :
    draft.scan (Piece.tokens position (options.map fun occurrence =>
      .word occurrence.describe) ++
        rest) =
      (draft.addOptions (options.map Occurrence.reread)).scan rest := by
  induction options generalizing draft position with
  | nil => simp only [List.map_nil, Piece.tokens, List.nil_append, Draft.addOptions,
      List.append_nil]
  | cons occurrence options ih =>
      have htail : ∀ other ∈ options, other.Printable :=
        fun other member => hprint other (List.mem_cons_of_mem _ member)
      have hnext : ∀ position, valueFrom (Piece.tokens position
          (options.map fun occurrence => .word occurrence.describe) ++ rest).head? =
            none := by
        intro position
        cases options with
        | nil => exact hrest
        | cons following options => exact valueFrom_describe following position
      have hadd := fun after => Draft.addWord_printed hnamed hopen hfirst
        (hprint occurrence List.mem_cons_self) position (hnext after)
      have hscan := ih htail
        (show (draft.addOptions [occurrence.reread]).name.isSome = true from hnamed)
          hopen hfirst
      rw [List.map_cons, Piece.tokens, List.cons_append,
        Draft.scan_word rfl (hadd _), hscan]
      simp only [Draft.addOptions, List.map_cons, List.append_assoc,
        List.singleton_append]

private theorem Draft.scan_arguments (arguments : List String) (rest : List Token)
    {draft : Draft} (hnamed : draft.name.isSome = true)
    (hended : draft.optionsEnded = true) (position : Nat) :
    draft.scan (Piece.tokens position (arguments.map .word) ++ rest) =
      Draft.scan { draft with arguments := draft.arguments ++ arguments } rest := by
  induction arguments generalizing draft position with
  | nil => simp only [List.map_nil, Piece.tokens, List.nil_append, List.append_nil]
  | cons argument arguments ih =>
      have hadd : ∀ next, draft.addWord
          (Piece.token position (.word argument)) next =
            .ok (draft.addArgument argument, false) := by
        intro next
        obtain ⟨name, hname⟩ := Option.isSome_iff_exists.mp hnamed
        simp only [Draft.addWord, hname, hended, if_true, Piece.token]
      have hscan := ih (show (draft.addArgument argument).name.isSome =
        true from hnamed) hended
      rw [List.map_cons, Piece.tokens, List.cons_append,
        Draft.scan_word rfl (hadd _), hscan]
      simp only [Draft.addArgument, List.append_assoc, List.singleton_append]

private theorem Draft.scan_redirections (redirections : Redirections) {draft : Draft}
    (hnone : draft.redirections = ⟨none, none⟩) (position : Nat) :
    draft.scan (Piece.tokens position redirections.pieces) =
      .ok { draft with redirections := redirections } := by
  obtain ⟨name, arguments, options, optionsEnded, _⟩ := draft
  cases hnone
  obtain ⟨stdin, stdout⟩ := redirections
  match stdin, stdout with
  | none, none => rfl
  | none, some ⟨path, true⟩ => rfl
  | none, some ⟨path, false⟩ => rfl
  | some path, none => rfl
  | some path, some ⟨output, true⟩ => rfl
  | some path, some ⟨output, false⟩ => rfl

theorem parseInvocation_pieces {invocation : Invocation}
    (hprint : invocation.Printable) (position : Nat) :
    parseInvocation (Piece.tokens position invocation.pieces) =
      .ok invocation.reread := by
  obtain ⟨name, arguments, options, redirections⟩ := invocation
  have hname : ∀ next, Draft.addWord .empty
      (Piece.token position (.word name)) next =
        .ok ({ Draft.empty with name := some name }, false) := fun next => rfl
  rw [parseInvocation, Invocation.pieces, Piece.tokens_append, Piece.tokens_append,
    Piece.tokens, List.cons_append, List.cons_append, List.append_assoc,
    Draft.scan_word rfl (hname _), Draft.scan_options (by rfl) hprint.options rfl rfl
      rfl, Piece.tokens, List.cons_append,
    Draft.scan_endOfOptions rfl, Draft.scan_arguments _ _ rfl rfl,
    Draft.scan_redirections _ rfl]
  rfl

theorem pieces_cons (invocation : Invocation) {rest : Pipeline} (hrest : rest ≠ []) :
    pieces (invocation :: rest) = invocation.pieces ++ .pipe :: pieces rest := by
  cases rest with
  | nil => exact absurd rfl hrest
  | cons second rest => rfl

private theorem ne_pipe_of_mem_pieces {invocation : Invocation} :
    ∀ piece ∈ invocation.pieces, piece.kind ≠ .pipe := by
  intro piece member
  rcases Invocation.of_mem_pieces member with
    ⟨_, _, rfl⟩ | rfl | rfl | ⟨_, rfl | rfl⟩ <;> nofun

theorem endsInRedirection_eq_false {tokens : List Token}
    (hnone : ∀ token ∈ tokens, isOutputRedirection token = false) :
    endsInRedirection tokens = false := by
  unfold endsInRedirection
  cases hlast : (tokens.filter fun token => token.kind ≠ .redirectIn).getLast? with
  | none => rfl
  | some token =>
      exact hnone token (List.mem_filter.mp (List.mem_of_getLast? hlast)).1

private theorem parseSegment_pieces {invocation : Invocation}
    (hprint : invocation.Printable) (hnone : invocation.redirections.stdout = none)
    (position pipe : Nat) :
    parseSegment ⟨Piece.tokens position invocation.pieces, pipe⟩ =
      .ok invocation.reread := by
  have hends : endsInRedirection (Piece.tokens position invocation.pieces) =
      false := by
    refine endsInRedirection_eq_false (Piece.forall_kind
      (fun kind => (decide (kind = .redirectOut) ||
        decide (kind = .redirectAppend)) = false) ?_)
    intro piece member
    rcases Invocation.of_mem_pieces member with ⟨_, _, rfl⟩ | rfl | rfl | ⟨hsome, _⟩
    · rfl
    · rfl
    · rfl
    · rw [hnone] at hsome
      cases hsome
  have hstdout : invocation.reread.redirections.stdout.isSome = false := by
    rw [Invocation.reread, hnone]
    rfl
  have hsome : (Piece.tokens position invocation.pieces).isEmpty = false := rfl
  simp only [parseSegment, hends, hsome, parseInvocation_pieces hprint, hstdout,
    Bool.false_eq_true, if_false]

theorem segments_pieces {initial : List Invocation} (hprint : ∀ invocation ∈ initial,
    invocation.Printable ∧ invocation.redirections.stdout = none)
    (final : Invocation) (position : Nat) :
    ∃ closed after,
      segments (Piece.tokens position (pieces (initial ++ [final]))) =
        (closed, Piece.tokens after final.pieces) ∧
      parseSegments closed = .ok (initial.map Invocation.reread) := by
  induction initial generalizing position with
  | nil =>
      refine ⟨[], position, ?_, rfl⟩
      exact segments_of_no_pipe (Piece.forall_kind (· ≠ .pipe) ne_pipe_of_mem_pieces)
  | cons invocation initial ih =>
      obtain ⟨hfirst, hstdout⟩ := hprint invocation List.mem_cons_self
      obtain ⟨closed, after, hcut, hparse⟩ := ih
        (fun other member => hprint other (List.mem_cons_of_mem _ member))
        (Piece.next position invocation.pieces + Piece.pipe.text.length + 1)
      have hsegment := parseSegment_pieces hfirst hstdout position
      rw [List.cons_append, pieces_cons _ (by simp), Piece.tokens_append,
        Piece.tokens, segments_append_pipe
          (Piece.forall_kind (· ≠ .pipe) ne_pipe_of_mem_pieces) rfl, hcut]
      refine ⟨_, after, rfl, ?_⟩
      rw [parseSegments, hsegment, hparse]
      rfl

private theorem parseTokens_pieces {pipeline : Pipeline}
    (hprint : Printable pipeline) (position : Nat) :
    parseTokens (Piece.tokens position (pieces pipeline)) =
      .ok (some (pipeline.map Invocation.reread)) := by
  have hsplit := List.dropLast_concat_getLast hprint.nonempty
  have hfinal := hprint.invocations _ (List.getLast_mem hprint.nonempty)
  obtain ⟨closed, after, hcut, hparse⟩ := segments_pieces
    (fun invocation member =>
      ⟨hprint.invocations invocation (List.dropLast_subset _ member),
        hprint.stdout invocation member⟩) (pipeline.getLast hprint.nonempty) position
  rw [hsplit] at hcut
  have hsome : (Piece.tokens position (pieces pipeline)).isEmpty = false := by
    rw [← hsplit]
    cases pipeline.dropLast with
    | nil => rfl
    | cons invocation rest =>
        rw [List.cons_append, pieces_cons _ (by simp)]
        rfl
  have hlast : (Piece.tokens after
      (pipeline.getLast hprint.nonempty).pieces).isEmpty = false :=
    rfl
  simp only [parseTokens, hsome, hcut, hparse, hlast, parseInvocation_pieces hfinal,
    Bool.false_eq_true, if_false]
  have hmap := congrArg (List.map Invocation.reread) hsplit
  rw [List.map_append] at hmap
  exact congrArg (fun invocations => Except.ok (some invocations)) hmap

private theorem tabFree_describe {occurrence : Occurrence}
    (hprint : occurrence.Printable) :
    Text.TabFree occurrence.describe := by
  have hvalue : '\t' ∉ valueChars occurrence := by
    unfold valueChars
    cases occurrence.hasValue with
    | false => nofun
    | true =>
        cases hvalue : occurrence.value with
        | none => decide
        | some value =>
            have habsent := hprint.tabFree_value value hvalue
            simpa [Text.TabFree] using habsent
  have hdashes : '\t' ∉ (if occurrence.isLong then ['-', '-'] else ['-']) := by
    cases occurrence.isLong <;> decide
  rw [Text.TabFree, toList_describe, List.mem_append, List.mem_append]
  rintro ((hmem | hmem) | hmem)
  · exact hdashes hmem
  · exact hprint.tabFree_name hmem
  · exact hvalue hmem

private theorem tabFree_words {invocation : Invocation}
    (hprint : invocation.Printable) :
    ∀ word ∈ invocation.words, Text.TabFree word := by
  intro word member
  simp only [Invocation.words, List.mem_cons, List.mem_append, List.mem_map,
    Option.mem_toList, Option.map_eq_some_iff] at member
  rcases member with rfl | ((⟨occurrence, hoption, rfl⟩ | hargument) | hstdin) |
    ⟨output, hstdout, rfl⟩
  · exact hprint.tabFree_name
  · exact tabFree_describe (hprint.options occurrence hoption)
  · exact hprint.tabFree_arguments word hargument
  · exact hprint.tabFree_stdin word hstdin
  · exact hprint.tabFree_stdout output hstdout

private theorem tabFree_pieces {pipeline : Pipeline}
    (hprint : ∀ invocation ∈ pipeline, invocation.Printable) :
    ∀ piece ∈ pieces pipeline, piece.TabFree := by
  have hfirst : ∀ invocation ∈ pipeline, ∀ piece ∈ invocation.pieces,
      piece.TabFree := by
    intro invocation hmember piece member
    rcases Invocation.of_mem_pieces member with
      ⟨word, hword, rfl⟩ | rfl | rfl | ⟨_, rfl | rfl⟩
    · exact tabFree_words (hprint invocation hmember) word hword
    · trivial
    · trivial
    · trivial
    · trivial
  induction pipeline with
  | nil => nofun
  | cons invocation rest ih =>
      cases rest with
      | nil => exact hfirst invocation List.mem_cons_self
      | cons second rest =>
          intro piece member
          rw [pieces_cons _ (List.cons_ne_nil second rest), List.mem_append,
            List.mem_cons] at member
          rcases member with member | rfl | member
          · exact hfirst invocation List.mem_cons_self piece member
          · trivial
          · exact ih (fun other member =>
              hprint other (List.mem_cons_of_mem _ member))
              (fun other member => hfirst other (List.mem_cons_of_mem _ member))
                piece member

/-- Parsing undoes printing. -/
theorem parse_print {pipeline : Pipeline} (hprint : Printable pipeline) :
    parse (print pipeline) = .ok (some (pipeline.map Invocation.reread)) := by
  rw [parse, print_eq_printAll,
    Token.tokenize_printAll (tabFree_pieces hprint.invocations)]
  exact parseTokens_pieces hprint 0

/-- Words that would be operators, options, numbers or nothing if they were not
quoted. -/
def quotedWords : Pipeline :=
  [⟨"|", ["--", "", "-5", "a \"b\" \\"],
      [⟨"x", true, some "=\\\"|", true, false, false, 0⟩,
        ⟨"v", false, none, false, false, false, 0⟩],
      ⟨some "<", none⟩⟩,
    ⟨"", ["-"], [⟨"5", false, some "", true, false, false, 0⟩],
      ⟨none, some ⟨">>", true⟩⟩⟩]

theorem parse_print_quotedWords :
    Printable quotedWords ∧
      parse (print quotedWords) =
        .ok (some (quotedWords.map Invocation.reread)) := by
  have hlong : Occurrence.Printable
      ⟨"x", true, some "=\\\"|", true, false, false, 0⟩ :=
    ⟨by decide, by decide, by simp [Text.TabFree], by decide, nofun⟩
  have hletter : Occurrence.Printable ⟨"v", false, none, false, false, false, 0⟩ :=
    ⟨by decide, by decide, nofun, nofun, fun _ => ⟨'v', by decide⟩⟩
  have hdigit : Occurrence.Printable ⟨"5", false, some "", true, false, false, 0⟩ :=
    ⟨by decide, by decide, by simp [Text.TabFree], nofun, fun _ => ⟨'5', by decide⟩⟩
  have hprint : Printable quotedWords := by
    refine ⟨nofun, ?_, by decide⟩
    intro invocation member
    simp only [quotedWords, List.mem_cons, List.not_mem_nil, or_false] at member
    rcases member with rfl | rfl
    · exact ⟨by decide, by decide, by decide, by decide, by simp [hlong, hletter]⟩
    · exact ⟨by decide, by decide, by decide, by decide, by simp [hdigit]⟩
  exact ⟨hprint, parse_print hprint⟩

end Pipeline

end PipeShell
