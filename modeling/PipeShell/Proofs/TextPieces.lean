import PipeShell.Proofs.Basic
import PipeShell.Text.Blank
import PipeShell.Text.Layout

namespace PipeShell.Text

theorem startsWith_iff {value start : String} :
    startsWith value start = true ↔ ∃ rest, value.toList = start.toList ++ rest := by
  rw [startsWith, List.isPrefixOf_iff_prefix]
  exact ⟨fun ⟨rest, h⟩ => ⟨rest, h.symm⟩, fun ⟨rest, h⟩ => ⟨rest, h.symm⟩⟩

theorem splitChars_ne_nil (separator : Char) (text : List Char) :
    splitChars separator text ≠ [] := by
  induction text with
  | nil => exact List.cons_ne_nil _ _
  | cons c rest ih =>
      rw [splitChars]
      split
      · exact List.cons_ne_nil _ _
      · cases hrest : splitChars separator rest with
        | nil => exact absurd hrest ih
        | cons piece pieces => exact List.cons_ne_nil _ _

theorem intercalate_splitChars (separator : Char) (text : List Char) :
    [separator].intercalate (splitChars separator text) = text := by
  induction text with
  | nil => rfl
  | cons c rest ih =>
      rw [splitChars]
      split
      · next hc =>
          rw [List.intercalate_cons_of_ne_nil (splitChars_ne_nil separator rest), ih,
            hc]
          rfl
      · cases hrest : splitChars separator rest with
        | nil => exact absurd hrest (splitChars_ne_nil separator rest)
        | cons piece pieces =>
            rw [hrest] at ih
            cases pieces with
            | nil => simpa using ih
            | cons next pieces => simpa [List.intercalate_cons_cons] using ih

theorem notMem_of_mem_splitChars {separator : Char} {text piece : List Char}
    (hpiece : piece ∈ splitChars separator text) : separator ∉ piece := by
  induction text generalizing piece with
  | nil =>
      rw [List.mem_singleton.mp hpiece]
      exact List.not_mem_nil
  | cons c rest ih =>
      rw [splitChars] at hpiece
      split at hpiece
      · rcases List.mem_cons.mp hpiece with rfl | hpiece
        · exact List.not_mem_nil
        · exact ih hpiece
      · next hother =>
          cases hrest : splitChars separator rest with
          | nil => exact absurd hrest (splitChars_ne_nil separator rest)
          | cons first pieces =>
              rw [hrest] at hpiece ih
              rcases List.mem_cons.mp hpiece with rfl | hpiece
              · intro hmem
                rcases List.mem_cons.mp hmem with heq | hmem
                · exact hother heq.symm
                · exact ih List.mem_cons_self hmem
              · exact ih (List.mem_cons_of_mem _ hpiece)

theorem splitChars_of_notMem {separator : Char} {piece : List Char}
    (hpiece : separator ∉ piece) :
    splitChars separator piece = [piece] := by
  induction piece with
  | nil => rfl
  | cons c rest ih =>
      rw [List.mem_cons, not_or] at hpiece
      rw [splitChars, if_neg (Ne.symm hpiece.1), ih hpiece.2]

theorem splitChars_append_separator (separator : Char) (text rest : List Char) :
    splitChars separator (text ++ separator :: rest) =
      splitChars separator text ++ splitChars separator rest := by
  induction text with
  | nil => simp [splitChars]
  | cons c text ih =>
      rw [List.cons_append, splitChars, splitChars, ih]
      split
      · rw [List.cons_append]
      · cases htext : splitChars separator text with
        | nil => exact absurd htext (splitChars_ne_nil separator text)
        | cons piece pieces => rfl

theorem split_append_separator {separator : Char} {mark : String}
    (hmark : mark.toList = [separator]) (text rest : String) :
    split separator (text ++ mark ++ rest) = split separator text ++
      split separator rest := by
  have hchars : (text ++ mark ++ rest).toList = text.toList ++
      separator :: rest.toList := by
    simp [hmark]
  rw [split, hchars, splitChars_append_separator, List.map_append]
  rfl

private theorem splitChars_append {separator : Char} {piece : List Char}
    (hpiece : separator ∉ piece) (rest : List Char) :
    splitChars separator (piece ++ separator :: rest) = piece :: splitChars
      separator rest := by
  rw [splitChars_append_separator, splitChars_of_notMem hpiece,
    List.singleton_append]

theorem splitChars_intercalate {separator : Char} {pieces : List (List Char)}
    (hsome : pieces ≠ []) (hpieces : ∀ piece ∈ pieces, separator ∉ piece) :
    splitChars separator ([separator].intercalate pieces) = pieces := by
  induction pieces with
  | nil => exact absurd rfl hsome
  | cons piece rest ih =>
      obtain ⟨hpiece, hrest⟩ := List.forall_mem_cons.mp hpieces
      cases rest with
      | nil => rw [List.intercalate_singleton, splitChars_of_notMem hpiece]
      | cons next rest =>
          rw [List.intercalate_cons_cons, List.append_assoc, List.singleton_append,
            splitChars_append hpiece, ih (List.cons_ne_nil _ _) hrest]

theorem mem_splitChars {separator c : Char} {text : List Char}
    (hother : c ≠ separator) : (∃ piece ∈ splitChars separator text, c ∈ piece) ↔
      c ∈ text := by
  rw [← mem_intercalate hother, intercalate_splitChars]

theorem cutLastChars_spec (separator : Char) (text : List Char) :
    (cutLastChars separator text).1 ++ (cutLastChars separator text).2 = text ∧
      separator ∉ (cutLastChars separator text).2 ∧
      ∀ c ∈ (cutLastChars separator text).1.getLast?, c = separator := by
  have htext : (text.reverse.dropWhile (· ≠ separator)).reverse ++
      (text.reverse.takeWhile (· ≠ separator)).reverse = text := by
    rw [← List.reverse_append, List.takeWhile_append_dropWhile, List.reverse_reverse]
  have hbefore : (cutLastChars separator text).1 =
      (text.reverse.dropWhile (· ≠ separator)).reverse := by
    change text.take (text.length -
      (text.reverse.takeWhile (· ≠ separator)).reverse.length) = _
    rw [← congrArg List.length htext, List.length_append, Nat.add_sub_cancel]
    exact (congrArg (List.take _) htext.symm).trans List.take_left
  rw [hbefore]
  refine ⟨htext, ?_, ?_⟩
  · intro hmember
    have hall := List.all_eq_true.mp
      (List.all_takeWhile (p := (· ≠ separator)) (l := text.reverse))
    simpa using hall separator (List.mem_reverse.mp hmember)
  · intro c hc
    rw [List.getLast?_reverse] at hc
    have hstop := List.head?_dropWhile_not (· ≠ separator) text.reverse
    rw [Option.mem_def.mp hc] at hstop
    simpa using hstop

theorem wordsFrom_append {piece : List Char}
    (hpiece : ∀ c ∈ piece, isBlank c = false) (word rest : List Char) :
    wordsFrom word (piece ++ rest) = wordsFrom (piece.reverse ++ word) rest := by
  induction piece generalizing word with
  | nil => rfl
  | cons c piece ih =>
      obtain ⟨hc, hpiece⟩ := List.forall_mem_cons.mp hpiece
      rw [List.cons_append, wordsFrom, hc]
      simp [ih hpiece]

theorem wordsFrom_of_stop {word : List Char} (hword : word ≠ []) {rest : List Char}
    (hstop : ∀ c ∈ rest.head?, isBlank c = true) :
    wordsFrom word rest = word.reverse :: wordsFrom [] rest := by
  cases rest with
  | nil => simp [wordsFrom, hword]
  | cons c rest => simp [wordsFrom, hstop c rfl, hword]

end PipeShell.Text
