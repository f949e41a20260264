import PipeShell.Path
import PipeShell.Proofs.TextPieces

namespace PipeShell.Path

def Normal (path : String) : Prop :=
  isAbsolute path = true ∧ normalize path = path

instance (path : String) : Decidable (Normal path) :=
  inferInstanceAs (Decidable (_ ∧ _))

/-- A part that normalising leaves where it is. -/
structure Plain (part : String) : Prop where
  nonempty : part ≠ ""
  notDot : part ≠ "."
  notDots : part ≠ ".."
  slashless : '/' ∉ part.toList

instance (part : String) : Decidable (Plain part) :=
  decidable_of_iff (part ≠ "" ∧ part ≠ "." ∧ part ≠ ".." ∧ '/' ∉ part.toList)
    ⟨fun ⟨nonempty, notDot, notDots, slashless⟩ =>
      ⟨nonempty, notDot, notDots, slashless⟩, fun hpart =>
        ⟨hpart.nonempty, hpart.notDot, hpart.notDots, hpart.slashless⟩⟩

variable {lead : Lead} {parts kept : List String}

private theorem Route.push_plain {part : String} (hpart : Plain part) :
    Route.push lead kept part = part :: kept := by
  simp [Route.push, hpart.nonempty, hpart.notDot, hpart.notDots]

theorem Route.foldl_push_plain (hparts : ∀ part ∈ parts, Plain part) :
    parts.foldl (Route.push lead) kept = parts.reverse ++ kept := by
  induction parts generalizing kept with
  | nil => rfl
  | cons part rest ih =>
      obtain ⟨hpart, hrest⟩ := List.forall_mem_cons.mp hparts
      rw [List.foldl_cons, Route.push_plain hpart, ih hrest]
      simp

/-- Above the root there is nothing, so a double dot never stays. -/
theorem Route.plain_push (hrooted : lead ≠ .relative)
    (hkept : ∀ part ∈ kept, Plain part) {part : String}
    (hslash : '/' ∉ part.toList) :
    ∀ other ∈ Route.push lead kept part, Plain other := by
  unfold Route.push
  split
  · exact hkept
  · next hdot =>
      split
      · cases kept with
        | nil => simp
        | cons last rest =>
            obtain ⟨hlast, hrest⟩ := List.forall_mem_cons.mp hkept
            simpa [hlast.notDots] using hrest
      · next hdots =>
          simp only [Bool.or_eq_true, decide_eq_true_eq, not_or] at hdot
          exact List.forall_mem_cons.mpr ⟨⟨hdot.1, hdot.2, hdots, hslash⟩, hkept⟩

private theorem Route.plain_foldl_push (hrooted : lead ≠ .relative)
    (hkept : ∀ part ∈ kept, Plain part)
    (hparts : ∀ part ∈ parts, '/' ∉ part.toList) :
    ∀ part ∈ parts.foldl (Route.push lead) kept, Plain part := by
  induction parts generalizing kept with
  | nil => exact hkept
  | cons part rest ih =>
      obtain ⟨hpart, hrest⟩ := List.forall_mem_cons.mp hparts
      exact ih (Route.plain_push hrooted hkept hpart) hrest

theorem slash_notMem_split {path part : String}
    (hpart : part ∈ Text.split '/' path) :
    '/' ∉ part.toList := by
  obtain ⟨piece, hpiece, rfl⟩ := List.mem_map.mp hpart
  rw [String.toList_ofList]
  exact Text.notMem_of_mem_splitChars hpiece

theorem Route.plain_reduce {path : String}
    (hrooted : Lead.ofChars path.toList ≠ .relative) :
    ∀ part ∈ (Route.ofString path).reduce.parts, Plain part := by
  intro part hpart
  refine Route.plain_foldl_push hrooted (by simp) ?_ part (List.mem_reverse.mp hpart)
  exact fun other hother => slash_notMem_split hother

/-- The parts of a path, one after the other with slashes between them. -/
def spelled (parts : List String) : List Char :=
  ['/'].intercalate (parts.map String.toList)

theorem head?_spelled (hparts : ∀ part ∈ parts, Plain part) :
    (spelled parts).head? ≠ some '/' := by
  cases parts with
  | nil => simp [spelled]
  | cons part rest =>
      have hpart := hparts part List.mem_cons_self
      have hsome : part.toList ≠ [] := by
        intro h
        exact hpart.nonempty (String.toList_eq_nil_iff.mp h)
      have hhead : (spelled (part :: rest)).head? = part.toList.head? := by
        cases rest with
        | nil => simp [spelled]
        | cons next rest =>
            simp [spelled, List.intercalate_cons_cons,
              List.head?_append_of_ne_nil _ hsome]
      rw [hhead]
      intro h
      exact hpart.slashless (List.mem_of_mem_head? h)

theorem splitChars_spelled (hsome : parts ≠ [])
    (hparts : ∀ part ∈ parts, Plain part) :
    Text.splitChars '/' (spelled parts) = parts.map String.toList := by
  apply Text.splitChars_intercalate (by simpa using hsome)
  intro piece hpiece
  obtain ⟨part, hpart, rfl⟩ := List.mem_map.mp hpiece
  exact (hparts part hpart).slashless

private theorem foldl_split_spelled (hparts : ∀ part ∈ parts, Plain part) :
    ((Text.splitChars '/' (spelled parts)).map String.ofList).foldl
    (Route.push lead) kept =
      parts.reverse ++ kept := by
  cases parts with
  | nil => rfl
  | cons part rest =>
      rw [splitChars_spelled (List.cons_ne_nil _ _) hparts, List.map_map]
      simpa using Route.foldl_push_plain hparts

theorem toList_render (hrooted : lead ≠ .relative) :
    (Route.render ⟨lead, parts⟩).toList = lead.text.toList ++ spelled parts := by
  have hsome : lead.text ++ Text.join "/" parts ≠ "" := by
    cases lead with
    | relative => exact absurd rfl hrooted
    | root | doubleRoot =>
        intro h
        simpa [Lead.text] using congrArg String.toList h
  rw [Route.render, if_neg hsome, String.toList_append, Text.join,
    String.toList_intercalate]
  rfl

theorem ofChars_root {chars : List Char} (hhead : chars.head? ≠ some '/') :
    Lead.ofChars ('/' :: chars) = .root := by
  cases chars with
  | nil => rfl
  | cons c rest =>
      have hc : c ≠ '/' := fun h => hhead (h ▸ rfl)
      simp [Lead.ofChars, hc]

theorem ofChars_doubleRoot {chars : List Char} (hhead : chars.head? ≠ some '/') :
    Lead.ofChars ('/' :: '/' :: chars) = .doubleRoot := by
  cases chars with
  | nil => rfl
  | cons c rest =>
      have hc : c ≠ '/' := fun h => hhead (h ▸ rfl)
      simp [Lead.ofChars, hc]

theorem foldl_split_slashes {slashes : List Char} (hslashes : ∀ c ∈ slashes, c = '/')
    (chars : List Char) :
    ((Text.splitChars '/' (slashes ++ chars)).map String.ofList).foldl
    (Route.push lead) kept =
      ((Text.splitChars '/' chars).map String.ofList).foldl (Route.push lead)
        kept := by
  induction slashes with
  | nil => rfl
  | cons c slashes ih =>
      obtain ⟨hc, hslashes⟩ := List.forall_mem_cons.mp hslashes
      rw [List.cons_append, Text.splitChars, if_pos hc, List.map_cons,
        List.foldl_cons]
      exact ih hslashes

theorem reduce_render (hrooted : lead ≠ .relative)
    (hparts : ∀ part ∈ parts, Plain part) :
    (Route.ofString (Route.render ⟨lead, parts⟩)).reduce = ⟨lead, parts⟩ := by
  have hhead := head?_spelled hparts
  have hlead : Lead.ofChars (lead.text.toList ++ spelled parts) = lead := by
    cases lead with
    | relative => exact absurd rfl hrooted
    | root => exact ofChars_root hhead
    | doubleRoot => exact ofChars_doubleRoot hhead
  have hslashes : ∀ c ∈ lead.text.toList, c = '/' := by
    cases lead <;> simp [Lead.text]
  simp only [Route.ofString, Route.reduce, Text.split, toList_render hrooted, hlead]
  rw [foldl_split_slashes hslashes, foldl_split_spelled hparts, List.append_nil,
    List.reverse_reverse]

theorem isAbsolute_iff {path : String} :
    isAbsolute path = true ↔ path.toList.head? = some '/' := by
  rw [isAbsolute, Text.startsWith]
  cases path.toList with
  | nil => simp
  | cons c rest => simpa using eq_comm

theorem rooted_of_head? {chars : List Char} (hhead : chars.head? = some '/') :
    Lead.ofChars chars ≠ .relative := by
  obtain ⟨rest, rfl⟩ := List.head?_eq_some_iff.mp hhead
  unfold Lead.ofChars
  split <;> simp_all

theorem normal_normalize {path : String} (habsolute : isAbsolute path = true) :
    Normal (normalize path) := by
  have hrooted := rooted_of_head? (isAbsolute_iff.mp habsolute)
  have hparts := Route.plain_reduce hrooted
  have hlead : (Route.ofString path).reduce.lead ≠ .relative := hrooted
  refine ⟨?_, ?_⟩
  · rw [isAbsolute_iff, normalize, toList_render hlead]
    cases hkind : (Route.ofString path).reduce.lead with
    | relative => exact absurd hkind hlead
    | root | doubleRoot => rfl
  · exact congrArg Route.render (reduce_render hlead hparts)

theorem isAbsolute_append_root (path : String) :
    isAbsolute (append "/" path) = true := by
  unfold append
  split
  · assumption
  · rw [isAbsolute_iff]
    simp

theorem normal_absolute (path : String) : Normal (absolute path) :=
  normal_normalize (isAbsolute_append_root path)

theorem normal_resolve (path workingDirectory home : String) :
    Normal (resolve path workingDirectory home) :=
  normal_absolute _

end PipeShell.Path
