import PipeShell.Channel.Reader
import PipeShell.Proofs.ParserSteps
import PipeShell.Proofs.Utf8Pieces

/-! What a file that does not change gives to its readers. A reading takes the file
in pieces, holds back a carriage return and delivers line by line; all that is still
to come is a text that no step changes, except by the line that it delivers. -/

namespace PipeShell.Channel

theorem unifyNewlines_append {front back : List Char}
    (hapart : front.getLast? ≠ some '\r' ∨ back.head? ≠ some '\n') :
    unifyNewlines (front ++ back) = unifyNewlines front ++ unifyNewlines back := by
  fun_induction unifyNewlines front with
  | case1 => rfl
  | case2 rest ih =>
      rw [List.cons_append, List.cons_append, unifyNewlines, ih, List.cons_append]
      cases rest with
      | nil => simp
      | cons c rest => simpa using hapart
  | case3 rest hother ih =>
      have hback : ∀ more, rest ++ back = '\n' :: more → False := by
        intro more hmore
        cases rest with
        | nil =>
            cases hmore
            simp at hapart
        | cons c rest =>
            cases hmore
            exact hother _ rfl
      rw [List.cons_append, unifyNewlines.eq_3 _ hback, ih, List.cons_append]
      cases rest with
      | nil => simp
      | cons c rest => simpa using hapart
  | case4 c rest hpair hreturn ih =>
      rw [List.cons_append, unifyNewlines.eq_4 _ _ (fun _ hc _ => hreturn hc)
        hreturn, ih, List.cons_append]
      cases rest with
      | nil => simp
      | cons d rest => simpa using hapart

theorem getLast?_unifyNewlines {text : List Char}
    (hend : text.getLast? = some '\n') :
    (unifyNewlines text).getLast? = some '\n' := by
  obtain ⟨front, rfl⟩ := List.getLast?_eq_some_iff.mp hend
  by_cases hreturn : front.getLast? = some '\r'
  · obtain ⟨front, rfl⟩ := List.getLast?_eq_some_iff.mp hreturn
    rw [List.append_assoc, unifyNewlines_append (.inr (by simp))]
    simp [unifyNewlines]
  · rw [unifyNewlines_append (.inl hreturn)]
    simp [unifyNewlines]

private theorem length_unifyNewlines_le (text : List Char) :
    (unifyNewlines text).length ≤ text.length := by
  fun_induction unifyNewlines text with
  | case1 => exact Nat.le_refl 0
  | case2 rest ih =>
      simp only [List.length_cons]
      omega
  | case3 rest hother ih => exact Nat.succ_le_succ ih
  | case4 c rest hpair hreturn ih => exact Nat.succ_le_succ ih

theorem unifyNewlines_of_notMem {text : List Char} (hplain : '\r' ∉ text) :
    unifyNewlines text = text := by
  fun_induction unifyNewlines text with
  | case1 => rfl
  | case2 rest ih => simp at hplain
  | case3 rest hother ih => simp at hplain
  | case4 c rest hpair hreturn ih =>
      rw [ih fun hmem => hplain (List.mem_cons_of_mem _ hmem)]

/-- The lines of a text in which every line ends in a line feed, the last one perhaps
not. -/
def linesOf : List Char → List (List Char)
  | [] => []
  | c :: rest =>
      if c = '\n' then [] :: linesOf rest
      else
        match linesOf rest with
        | [] => [[c]]
        | line :: more => (c :: line) :: more

theorem linesOf_line {line : List Char} (hline : '\n' ∉ line) (rest : List Char) :
    linesOf (line ++ '\n' :: rest) = line :: linesOf rest := by
  induction line with
  | nil => rw [List.nil_append, linesOf, if_pos rfl]
  | cons c line ih =>
      rw [List.mem_cons, not_or] at hline
      rw [List.cons_append, linesOf, if_neg (Ne.symm hline.1), ih hline.2]

theorem linesOf_last {line : List Char} (hline : '\n' ∉ line) :
    linesOf line = if line = [] then [] else [line] := by
  induction line with
  | nil => rfl
  | cons c line ih =>
      rw [List.mem_cons, not_or] at hline
      rw [linesOf, if_neg (Ne.symm hline.1), ih hline.2,
        if_neg (List.cons_ne_nil c line)]
      cases line with
      | nil => rfl
      | cons d line => rfl

theorem linesOf_eq_nil_iff {text : List Char} : linesOf text = [] ↔ text = [] := by
  cases text with
  | nil => simp [linesOf]
  | cons c rest =>
      simp only [linesOf, List.cons_ne_nil, iff_false]
      split
      · exact List.cons_ne_nil _ _
      · split <;> exact List.cons_ne_nil _ _

theorem linesOf_append {front : List Char}
    (hend : front = [] ∨ front.getLast? = some '\n') (back : List Char) :
    linesOf (front ++ back) = linesOf front ++ linesOf back := by
  induction front with
  | nil => rfl
  | cons c front ih =>
      have hlast : (c :: front).getLast? = some '\n' := by simpa using hend
      by_cases hc : c = '\n'
      · have hfront : front = [] ∨ front.getLast? = some '\n' := by
          cases front with
          | nil => exact .inl rfl
          | cons d front => exact .inr hlast
        rw [List.cons_append, linesOf, if_pos hc, ih hfront, linesOf, if_pos hc,
          List.cons_append]
      · cases front with
        | nil => exact absurd (Option.some.inj hlast) hc
        | cons d front =>
            have hcons : ∀ rest, linesOf (c :: rest) =
                match linesOf rest with
                | [] => [[c]]
                | line :: more => (c :: line) :: more := by
              intro rest
              rw [linesOf, if_neg hc]
            rw [List.cons_append, hcons, ih (.inr hlast), hcons]
            cases hlines : linesOf (d :: front) with
            | nil =>
                exact absurd (linesOf_eq_nil_iff.mp hlines)
                  (List.cons_ne_nil d front)
            | cons line more => rfl

namespace Reading

variable {content : List UInt8} {reading next filled : Reading}

def waiting (reading : Reading) : List Char :=
  if reading.held then ['\r'] else []

/-- The text that is still to be delivered, if the rest of the file can be
decoded. -/
def text? (content : List UInt8) (reading : Reading) : Option (List Char) :=
  (reading.decoder.text? (content.drop reading.offset)).map fun chars =>
    reading.ready ++ unifyNewlines (reading.waiting ++ chars)

def left (content : List UInt8) (reading : Reading) : Nat :=
  reading.ready.length + reading.waiting.length + reading.decoder.pending.length +
    (content.length - reading.offset)

structure Precedes (content : List UInt8) (reading next : Reading) : Prop where
  names : next.names = reading.names
  text : next.text? content = reading.text? content
  left : next.left content ≤ reading.left content

theorem Precedes.refl (content : List UInt8) (reading : Reading) :
    Precedes content reading reading :=
  ⟨rfl, rfl, Nat.le_refl _⟩

private theorem Precedes.trans (hfirst : Precedes content reading next)
    (hmore : Precedes content next filled) :
    Precedes content reading filled :=
  ⟨hmore.names.trans hfirst.names, hmore.text.trans hfirst.text,
    Nat.le_trans hmore.left hfirst.left⟩

theorem accept_eq (reading : Reading) {chars : List Char} (hsome : chars ≠ []) :
    reading.accept chars =
      if (reading.waiting ++ chars).getLast? = some '\r' then
        { reading with
          held := true
          ready := reading.ready ++
            unifyNewlines (reading.waiting ++ chars).dropLast }
      else
        { reading with
          held := false
          ready := reading.ready ++ unifyNewlines (reading.waiting ++ chars) } := by
  have hall : (if reading.held = true then '\r' :: chars else chars) =
      reading.waiting ++ chars := by
    unfold waiting
    split <;> rfl
  unfold accept
  rw [if_neg (by simpa using hsome)]
  simp only [hall]

private theorem accept_text (reading : Reading) (chars more : List Char) :
    (reading.accept chars).ready ++
      unifyNewlines ((reading.accept chars).waiting ++ more) =
      reading.ready ++ unifyNewlines (reading.waiting ++ (chars ++ more)) := by
  by_cases hsome : chars = []
  · subst hsome
    rfl
  · rw [accept_eq reading hsome, ← List.append_assoc reading.waiting]
    generalize reading.waiting ++ chars = all
    split
    · next hlast =>
        obtain ⟨front, rfl⟩ := List.getLast?_eq_some_iff.mp hlast
        simp only [waiting, if_true, List.dropLast_concat, List.append_assoc,
          List.singleton_append]
        rw [unifyNewlines_append (.inr (by simp))]
    · next hlast =>
        simp only [waiting, Bool.false_eq_true, if_false, List.nil_append,
          List.append_assoc]
        rw [unifyNewlines_append (.inl hlast)]

private theorem accept_length (reading : Reading) (chars : List Char) :
    (reading.accept chars).ready.length + (reading.accept chars).waiting.length ≤
      reading.ready.length + reading.waiting.length + chars.length := by
  by_cases hsome : chars = []
  · subst hsome
    exact Nat.le_refl _
  · have hlength : (reading.waiting ++ chars).length = reading.waiting.length +
        chars.length :=
      List.length_append
    rw [accept_eq reading hsome]
    generalize reading.waiting ++ chars = all at hlength ⊢
    generalize reading.waiting.length = held at hlength ⊢
    split
    · next hlast =>
        obtain ⟨front, rfl⟩ := List.getLast?_eq_some_iff.mp hlast
        have hfront := length_unifyNewlines_le front
        simp only [List.length_append, List.length_singleton] at hlength
        simp only [waiting, if_true, List.dropLast_concat, List.length_append,
          List.length_singleton]
        omega
    · have hall := length_unifyNewlines_le all
      simp only [waiting, Bool.false_eq_true, if_false, List.length_append,
        List.length_nil]
      omega

theorem accept_unchanged (reading : Reading) (chars : List Char) :
    (reading.accept chars).names = reading.names ∧
    (reading.accept chars).offset = reading.offset ∧
      (reading.accept chars).decoder = reading.decoder := by
  by_cases hsome : chars = []
  · subst hsome
    exact ⟨rfl, rfl, rfl⟩
  · rw [accept_eq reading hsome]
    split <;> exact ⟨rfl, rfl, rfl⟩

theorem text?_rebase (content : List UInt8) (reading : Reading) (size : Nat) :
    reading.decoder.text? (content.drop reading.offset) =
      reading.decoder.rebase.text?
        ((content.drop reading.offset).take size ++
          (content.drop reading.offset).drop size) := by
  have hsame : reading.decoder.pending = reading.decoder.rebase.pending := rfl
  rw [List.take_append_drop]
  exact Text.Utf8.Decoder.text?_of_pending hsame _

theorem takePiece_ok {size : Nat}
    (htake : reading.takePiece ((content.drop reading.offset).take size) =
      .ok next) :
    Precedes content reading next ∧
      content.drop next.offset = (content.drop reading.offset).drop size := by
  have hrebase := text?_rebase content reading size
  have hpiece : ((content.drop reading.offset).take size).length ≤ content.length -
      reading.offset := by
    rw [List.length_take, List.length_drop]
    omega
  have hdrop : content.drop
      (reading.offset + ((content.drop reading.offset).take size).length) =
        (content.drop reading.offset).drop size := by
    rw [← List.drop_drop, List.length_take, List.drop_eq_drop_iff]
    omega
  generalize (content.drop reading.offset).take size = piece at *
  unfold takePiece at htake
  split at htake
  · cases htake
  · next decoder chars hfeed =>
      cases htake
      let taken := { reading with decoder, offset := reading.offset + piece.length }
      obtain ⟨hnames, hoffset, hdecoder⟩ := accept_unchanged taken chars
      refine ⟨⟨hnames, ?_, ?_⟩, by rw [hoffset, hdrop]⟩
      · rw [text?, text?, hoffset, hdecoder, hdrop, hrebase,
          Text.Utf8.Decoder.text?_append_of_feed hfeed, Option.map_map]
        congr 1
        funext more
        exact accept_text taken chars more
      · have hlength := accept_length taken chars
        have hfed := Text.Utf8.Decoder.feed_length hfeed
        have hpending : reading.decoder.rebase.pending = reading.decoder.pending :=
          rfl
        change (taken.accept chars).left content ≤ reading.left content
        rw [left, left, hoffset, hdecoder]
        change _ + decoder.pending.length +
          (content.length - (reading.offset + piece.length)) ≤ _
        change _ ≤ reading.ready.length + reading.waiting.length +
          chars.length at hlength
        rw [hpending] at hfed
        omega

private theorem takePiece_error {size : Nat} {fault : Text.Utf8.Fault}
    (htake : reading.takePiece ((content.drop reading.offset).take size) =
      .error fault) :
    reading.text? content = none := by
  unfold takePiece at htake
  split at htake
  · next hfeed =>
      rw [text?, text?_rebase, Text.Utf8.Decoder.text?_append_of_error hfeed,
        Option.map_none]
  · cases htake

private theorem reachEnd_ok (hend : content.drop reading.offset = [])
    (hreach : reading.reachEnd = .ok next) :
    Precedes content reading next ∧ next.text? content = some next.ready := by
  unfold reachEnd at hreach
  split at hreach
  · cases hreach
  · next hfinish =>
      have hpending : reading.decoder.rebase.pending = [] :=
        Text.Utf8.Decoder.finish_ok_iff.mp hfinish
      change reading.decoder.pending = [] at hpending
      have hchars : reading.decoder.text? [] = some [] := by
        rw [Text.Utf8.Decoder.text?_nil, if_pos hpending]
      split at hreach
      · next hheld =>
          cases hreach
          refine ⟨⟨rfl, ?_, ?_⟩, ?_⟩
          · simp [text?, hend, hchars, waiting, hheld, unifyNewlines]
          · simp [left, waiting, hheld]
          · simp [text?, hend, hchars, waiting, unifyNewlines]
      · next hheld =>
          cases hreach
          refine ⟨.refl content reading, ?_⟩
          simp [text?, hend, hchars, waiting, hheld, unifyNewlines]

private theorem reachEnd_error {fault : Text.Utf8.Fault}
    (hend : content.drop reading.offset = [])
    (hreach : reading.reachEnd = .error fault) : reading.text? content = none := by
  unfold reachEnd at hreach
  split at hreach
  · next hfinish =>
      have hpending : reading.decoder.pending ≠ [] := by
        intro hpending
        have hrebased : reading.decoder.rebase.pending = [] := hpending
        rw [Text.Utf8.Decoder.finish_ok_iff.mpr hrebased] at hfinish
        cases hfinish
      rw [text?, hend, Text.Utf8.Decoder.text?_nil, if_neg hpending, Option.map_none]
  · split at hreach <;> cases hreach

/-- Filling goes on in the same file until a line is complete or all the text is
there. -/
theorem fill_spec {rest : List UInt8} (hrest : content.drop reading.offset = rest) :
    match reading.fill rest with
    | .error _ => reading.text? content = none
    | .ok filled => Precedes content reading filled ∧
        ('\n' ∈ filled.ready ∨ filled.text? content = some filled.ready) := by
  fun_induction fill reading rest with
  | case1 reading rest hline =>
      exact ⟨.refl content reading, .inl (by simpa using hline)⟩
  | case2 reading rest hline hempty =>
      rw [List.isEmpty_iff.mp hempty] at hrest
      cases hreach : reading.reachEnd with
      | error fault => exact reachEnd_error hrest hreach
      | ok ended =>
          obtain ⟨hprecedes, hall⟩ := reachEnd_ok hrest hreach
          exact ⟨hprecedes, .inr hall⟩
  | case3 reading rest hline hmore fault htake =>
      subst hrest
      exact takePiece_error htake
  | case4 reading rest hline hmore next htake ih =>
      subst hrest
      obtain ⟨hprecedes, hdrop⟩ := takePiece_ok htake
      have hfill := ih hdrop
      split at hfill
      · exact hprecedes.text ▸ hfill
      · exact ⟨hprecedes.trans hfill.1, hfill.2⟩

def lines? (content : List UInt8) (reading : Reading) : Option (List String) :=
  (reading.text? content).map fun text => (linesOf text).map String.ofList

private theorem lines?_of_newline {front back : List Char} (hfront : '\n' ∉ front)
    (hready : reading.ready = front ++ '\n' :: back) :
    reading.lines? content =
      ({ reading with ready := back }.lines? content).map
      (String.ofList front :: ·) := by
  rw [lines?, lines?, text?, text?, hready, Option.map_map, Option.map_map,
    Option.map_map]
  congr 1
  funext chars
  simp only [Function.comp_apply, List.append_assoc, List.cons_append]
  rw [linesOf_line hfront, List.map_cons]
  rfl

private theorem text?_of_delivered
    (hall : reading.text? content = some reading.ready) :
    { reading with ready := [] }.text? content = some [] := by
  obtain ⟨chars, hchars, hready⟩ := Option.map_eq_some_iff.mp hall
  have hnone : unifyNewlines (reading.waiting ++ chars) = [] := by simpa using hready
  have hsame : { reading with ready := [] }.waiting = reading.waiting := rfl
  rw [text?, hsame, hchars, Option.map_some, hnone]
  rfl

def deliver (reading : Reading) : Option (String × Reading) :=
  match Text.cutChars '\n' reading.ready with
  | (line, some rest) => some (String.ofList line, { reading with ready := rest })
  | ([], none) => none
  | (line, none) => some (String.ofList line, { reading with ready := [] })

theorem next_eq_map_deliver (reading : Reading) (files : FileTree) :
    reading.next files =
      (reading.fill ((files.content reading.names).drop reading.offset)).map
        deliver := by
  have hfill : (if reading.ready.contains '\n' then .ok reading
      else reading.fill ((files.content reading.names).drop reading.offset)) =
        reading.fill ((files.content reading.names).drop reading.offset) := by
    split
    · next hline => rw [fill, if_pos hline]
    · rfl
  unfold next
  simp only [hfill]
  cases reading.fill ((files.content reading.names).drop reading.offset) with
  | error fault => rfl
  | ok filled =>
      simp only [Except.map, deliver]
      rcases Text.cutChars '\n' filled.ready with ⟨_ | _, _ | _⟩ <;> rfl

private theorem deliver_spec
    (hready : '\n' ∈ reading.ready ∨ reading.text? content = some reading.ready) :
    match reading.deliver with
    | none => reading.lines? content = some []
    | some (line, rest) =>
        rest.names = reading.names ∧ rest.left content < reading.left content ∧
          reading.lines? content = (rest.lines? content).map (line :: ·) := by
  by_cases hline : '\n' ∈ reading.ready
  · obtain ⟨front, back, hcut, hfront⟩ := List.eq_append_cons_of_mem hline
    rw [deliver, hcut, Text.cutChars_append hfront]
    refine ⟨rfl, ?_, lines?_of_newline hfront hcut⟩
    simp only [left, waiting, hcut, List.length_append, List.length_cons]
    omega
  · have hall := hready.resolve_left hline
    have hlines : reading.lines? content =
        some (if reading.ready = [] then [] else [String.ofList reading.ready]) := by
      rw [lines?, hall, Option.map_some, linesOf_last hline]
      split <;> rfl
    rw [deliver, Text.cutChars_of_notMem hline]
    cases hchars : reading.ready with
    | nil =>
        rw [hlines, if_pos hchars]
    | cons c chars =>
        refine ⟨rfl, ?_, ?_⟩
        · simp only [left, waiting, hchars, List.length_cons, List.length_nil]
          omega
        · rw [hlines, if_neg (by simp [hchars]), lines?,
            text?_of_delivered hall, hchars]
          rfl

/-- One line fewer is left after a line has been delivered. -/
theorem next_spec {files : FileTree}
    (hcontent : files.content reading.names = content) :
    match reading.next files with
    | .error _ => reading.lines? content = none
    | .ok none => reading.lines? content = some []
    | .ok (some (line, rest)) =>
        rest.names = reading.names ∧ rest.left content < reading.left content ∧
          reading.lines? content = (rest.lines? content).map (line :: ·) := by
  have hfill := @fill_spec content reading _ rfl
  rw [next_eq_map_deliver, hcontent]
  cases hfilled : reading.fill (content.drop reading.offset) with
  | error fault =>
      rw [hfilled] at hfill
      rw [Except.map, lines?, hfill, Option.map_none]
  | ok filled =>
      rw [hfilled] at hfill
      obtain ⟨hprecedes, hready⟩ := hfill
      have hdeliver := deliver_spec hready
      have hlines : filled.lines? content = reading.lines? content := by
        rw [lines?, lines?, hprecedes.text]
      rw [hlines] at hdeliver
      rw [Except.map]
      cases hline : filled.deliver with
      | none =>
          rw [hline] at hdeliver
          exact hdeliver
      | some delivered =>
          rw [hline] at hdeliver
          obtain ⟨hnames, hleft, hmore⟩ := hdeliver
          exact ⟨hnames.trans hprecedes.names,
            Nat.lt_of_lt_of_le hleft hprecedes.left, hmore⟩

end Reading

/-- The lines of a file with the given content, unless it cannot be decoded. -/
def fileLines? (content : List UInt8) : Option (List String) :=
  (Text.Utf8.Decoder.start.text? content).map fun chars =>
    (linesOf (unifyNewlines chars)).map String.ofList

theorem Reading.left_start (names : List String) (content : List UInt8) :
    (Reading.start names).left content = content.length := by
  simp [Reading.left, Reading.start, Reading.waiting, Text.Utf8.Decoder.start]

theorem Reading.lines?_start (names : List String) (content : List UInt8) :
    (Reading.start names).lines? content = fileLines? content := by
  rw [Reading.lines?, Reading.text?, Option.map_map]
  rfl

namespace Cursor

variable {files : FileTree}

private theorem collect_opened {content : List UInt8} {reading : Reading}
    {steps : Nat} (hcontent : files.content reading.names = content)
    (henough : reading.left content < steps) (read : Array String) :
    (collect false files steps read (.opened reading)).toOption =
      (reading.lines? content).map fun lines => read ++ lines.toArray := by
  induction steps generalizing reading read with
  | zero => exact absurd henough (Nat.not_lt_zero _)
  | succ steps ih =>
      have hspec := Reading.next_spec hcontent
      rw [collect, next, nextOf]
      cases hnext : reading.next files with
      | error fault =>
          rw [hnext] at hspec
          simp only at hspec
          rw [hspec]
          rfl
      | ok delivered =>
          rw [hnext] at hspec
          cases delivered with
          | none =>
              simp only at hspec
              rw [hspec]
              simp [Except.toOption]
          | some delivered =>
              obtain ⟨hnames, hleft, hlines⟩ := hspec
              simp only [Bool.false_eq_true, if_false]
              rw [ih (hnames ▸ hcontent) (by omega), hlines, Option.map_map]
              congr 1
              funext lines
              simp

private theorem collect_unopened {path : String} {names : List String}
    (hzero : FileTree.hasZero path = false)
    (hopen : files.openForReading path = .ok names) (steps : Nat)
    (read : Array String) : collect false files steps read (.unopened path) =
      collect false files steps read (.opened (Reading.start names)) := by
  cases steps with
  | zero => rfl
  | succ steps =>
      have hnext : next false files (.unopened path) =
          next false files (.opened (Reading.start names)) := by
        simp only [next, Bool.false_eq_true, if_false, hzero, hopen]
      rw [collect, hnext, collect]

private theorem collect_error {cursor : Cursor} {fault : Fault}
    (hnext : cursor.next false files = .error fault) (steps : Nat)
    (read : Array String) :
    (cursor.collect false files steps read).toOption = none := by
  cases steps with
  | zero => rfl
  | succ steps =>
      rw [collect, hnext]
      rfl

end Cursor

theorem Source.readAll_file (files : FileTree) (path : String) :
    (Source.readAll false files (.file path)).toOption = (files.read? path).bind
      fileLines? := by
  have hread : Source.readAll false files (.file path) =
      (Cursor.collect false files (Cursor.bound files (.unopened path)) #[]
        (.unopened path)).map
        Array.toList := rfl
  have hmap : ∀ result : Except Fault (Array String),
      (result.map Array.toList).toOption = result.toOption.map Array.toList := by
    intro result
    cases result <;> rfl
  rw [hread, hmap, FileTree.read?]
  by_cases hzero : FileTree.hasZero path = true
  · have hnext : Cursor.next false files (.unopened path) = .error .zeroInPath := by
      simp only [Cursor.next, Bool.false_eq_true, if_false, hzero, if_true]
    rw [Cursor.collect_error hnext, if_pos hzero]
    rfl
  · rw [Bool.not_eq_true] at hzero
    rw [hzero]
    cases hopen : files.openForReading path with
    | error fault =>
        have hnext : Cursor.next false files (.unopened path) =
            .error (Machine.cannotOpen path fault) := by
          simp only [Cursor.next, Bool.false_eq_true, if_false, hzero, hopen]
        rw [Cursor.collect_error hnext]
        rfl
    | ok names =>
        have hbound : Cursor.bound files (.unopened path) =
            (files.content names).length + 2 := by
          simp only [Cursor.bound, hopen]
        have henough : (Reading.start names).left (files.content names) <
            (files.content names).length + 2 := by
          rw [Reading.left_start]
          omega
        have hcontent : files.content (Reading.start names).names =
            files.content names := rfl
        rw [hbound, Cursor.collect_unopened hzero hopen,
          Cursor.collect_opened hcontent henough, Reading.lines?_start,
          Option.map_map]
        simp [Except.toOption, Function.comp_def]

theorem Source.readAll_file_ok_iff {files : FileTree} {path : String}
    {lines : List String} :
    Source.readAll false files (.file path) = .ok lines ↔
      (files.read? path).bind fileLines? = some lines := by
  rw [← readAll_file]
  cases Source.readAll false files (.file path) <;> simp [Except.toOption]

end PipeShell.Channel
