import Mathlib.Data.List.Permutation
import Mathlib.Data.String.Basic
import PipeShell.Proofs.CompletionResults
import PipeShell.Proofs.Flags
import PipeShell.Proofs.RegistryLog

namespace PipeShell

section

variable {α β : Type} {key : α → String} {items sorted : List α}

/-- The same items in the order of their keys. Items with the same key keep their
order. -/
structure SortedBy (key : α → String) (items sorted : List α) : Prop where
  perm : sorted.Perm items
  ordered : sorted.Pairwise fun a b => key a ≤ key b
  stable : ∀ value, sorted.filter (key · = value) = items.filter (key · = value)

theorem sortedBy_mergeSort (key : α → String) (items : List α) :
    SortedBy key items (items.mergeSort fun a b => key a ≤ key b) := by
  have htrans : ∀ a b c : α, decide (key a ≤ key b) → decide (key b ≤ key c) →
      decide (key a ≤ key c) := by
    intro a b c hab hbc
    exact decide_eq_true (String.le_trans (of_decide_eq_true hab)
      (of_decide_eq_true hbc))
  have htotal : ∀ a b : α, decide (key a ≤ key b) || decide (key b ≤ key a) := by
    intro a b
    simpa using String.le_total (key a) (key b)
  have hperm := items.mergeSort_perm fun a b => key a ≤ key b
  refine ⟨hperm, ?_, ?_⟩
  · exact (List.pairwise_mergeSort htrans htotal items).imp of_decide_eq_true
  · intro value
    -- Items with one key are in order already, so sorting keeps them together as
    -- they are.
    have hsame : (items.filter (key · = value)).Pairwise fun a b =>
        decide (key a ≤ key b) := by
      refine List.pairwise_of_forall_mem_list fun a ha b hb => ?_
      have ha' := of_decide_eq_true (List.mem_filter.mp ha).2
      have hb' := of_decide_eq_true (List.mem_filter.mp hb).2
      exact decide_eq_true (ha'.trans hb'.symm ▸ String.le_refl _)
    have hsublist := (List.sublist_mergeSort htrans htotal hsame
      List.filter_sublist).filter
      (key · = value)
    simp only [List.filter_filter, Bool.and_self] at hsublist
    exact (hsublist.eq_of_length (hperm.filter _).length_eq.symm).symm

private theorem SortedBy.filter (hsorted : SortedBy key items sorted)
    (keep : α → Bool) :
    SortedBy key (items.filter keep) (sorted.filter keep) where
  perm := hsorted.perm.filter keep
  ordered := hsorted.ordered.filter keep
  stable value := by
    rw [List.filter_filter, List.filter_filter]
    simp only [Bool.and_comm]
    rw [← List.filter_filter, ← List.filter_filter, hsorted.stable]

theorem SortedBy.map {write : α → β} {key : β → String}
    (hsorted : SortedBy (fun item => key (write item)) items sorted) :
    SortedBy key (items.map write) (sorted.map write) where
  perm := hsorted.perm.map write
  ordered := List.pairwise_map.mpr hsorted.ordered
  stable value := by
    rw [List.filter_map, List.filter_map]
    exact congrArg (List.map write) (hsorted.stable value)

private theorem SortedBy.nodup (hsorted : SortedBy key items sorted)
    (hitems : items.Nodup) :
    sorted.Nodup :=
  hsorted.perm.nodup_iff.mpr hitems

end

namespace Text

/-- The text begins with the word, both in small letters. -/
def Begins (word text : String) : Prop :=
  (lower word).toList <+: (lower text).toList

instance (word text : String) : Decidable (Begins word text) :=
  inferInstanceAs (Decidable (_ <+: _))

theorem startsWithIgnoringCase_eq (text word : String) :
    startsWithIgnoringCase text word = decide (Begins word text) := by
  rw [Bool.eq_iff_iff, decide_eq_true_iff]
  exact List.isPrefixOf_iff_prefix

end Text

namespace Registry

private theorem names_nodup (changes : List Change) : (run changes).names.Nodup := by
  have hholds := holds_run changes
  have hkeys : (run changes).names.map Text.lower =
      Table.keys (run changes).commands := by
    rw [names, List.map_map]
    exact List.map_congr_left fun entry hentry => (hholds.keyed entry hentry).symm
  exact List.Nodup.of_map Text.lower (hkeys ▸ hholds.distinct)

end Registry

def OptionSchema.spellings (option : OptionSchema) : List String :=
  ("--" ++ option.long) :: (option.short.map fun c =>
    "-" ++ String.ofList [c]).toList

theorem long_ne_short {c : Char} (hc : c ≠ '-') (long : String) :
    "--" ++ long ≠ "-" ++ String.ofList [c] := by
  intro hsame
  have hchars : '-' :: '-' :: long.toList = ['-', c] := by
    simpa using congrArg String.toList hsame
  simp only [List.cons.injEq] at hchars
  exact hc hchars.2.1.symm

namespace OptionSchema

variable {left right : OptionSchema}

private theorem mem_spellings {option : OptionSchema} {spelling : String} :
    spelling ∈ option.spellings ↔
      spelling = "--" ++ option.long ∨
        ∃ c, option.short = some c ∧ spelling = "-" ++ String.ofList [c] := by
  simp [spellings, eq_comm]

private theorem spellings_nodup {option : OptionSchema}
    (hshort : ∀ c, option.short = some c → c ≠ '-') :
    option.spellings.Nodup := by
  refine List.nodup_cons.mpr ⟨?_, Option.toList_nodup _⟩
  simp only [Option.mem_toList, Option.map_eq_some_iff, not_exists, not_and]
  intro c hc hsame
  exact long_ne_short (hshort c hc) option.long hsame.symm

private theorem Apart.disjoint_spellings (hapart : left.Apart right)
    (hleft : ∀ c, left.short = some c → c ≠ '-')
    (hright : ∀ c, right.short = some c → c ≠ '-') :
    left.spellings.Disjoint right.spellings := by
  intro spelling hspelling hother
  rcases mem_spellings.mp hspelling with rfl | ⟨c, hc, rfl⟩
  · rcases mem_spellings.mp hother with hsame | ⟨d, hd, hsame⟩
    · exact hapart.1 (congrArg Text.lower ((String.append_right_inj _).mp hsame))
    · exact long_ne_short (hright d hd) left.long hsame
  · rcases mem_spellings.mp hother with hsame | ⟨d, hd, hsame⟩
    · exact long_ne_short (hleft c hc) right.long hsame.symm
    · obtain rfl : c = d := by
        have hchars := String.ofList_injective ((String.append_right_inj _).mp hsame)
        exact List.singleton_inj.mp hchars
      exact hapart.2 c hc hd

end OptionSchema

private theorem CommandSchema.spellings_nodup {declaration : CommandDeclaration}
    {schema : CommandSchema} (hschema : declaration.toSchema = .ok schema) :
    (schema.options.flatMap OptionSchema.spellings).Nodup := by
  have hshort (option : OptionSchema) (hoption : option ∈ schema.options) (c : Char)
      (hc : option.short = some c) : c ≠ '-' :=
    (CommandDeclaration.short_ne hschema hoption hc).1
  refine List.nodup_flatMap.mpr ⟨fun option hoption => ?_, ?_⟩
  · exact OptionSchema.spellings_nodup (hshort option hoption)
  · refine (CommandDeclaration.namesApart hschema).imp_of_mem
      fun hleft hright hapart => ?_
    exact hapart.disjoint_spellings (hshort _ hleft) (hshort _ hright)

private theorem FileTree.Sound.names_nodup {tree : FileTree} (hsound : tree.Sound)
    {path : String} {entries : List (String × Bool)}
    (hlist : tree.list path = .ok entries) : (entries.map Prod.fst).Nodup := by
  unfold list at hlist
  split at hlist
  · cases hlist
  · cases hlist
  · next parent hlocate =>
      cases hlist
      refine ((List.mergeSort_perm _ _).map Prod.fst).nodup_iff.mpr ?_
      have hnames : (tree.entries.filterMap fun entry =>
          (nameIn? parent entry.1).map fun name =>
            (name, decide (entry.2 = .directory))).map Prod.fst =
            (tree.entries.map Prod.fst).filterMap (nameIn? parent) := by
        rw [List.map_filterMap, List.filterMap_map]
        refine List.filterMap_congr fun entry hentry => ?_
        simp [Function.comp_def]
      refine (congrArg List.Nodup hnames).mpr ?_
      refine hsound.distinct.filterMap fun names other name hname hother => ?_
      rw [eq_append_of_nameIn? hname, eq_append_of_nameIn? hother]

namespace Completion

theorem sortedBy_sortByText (candidates : List Candidate) :
    SortedBy Text.lower (candidates.map Candidate.text)
      ((sortByText candidates).map Candidate.text) :=
  (sortedBy_mergeSort (fun candidate : Candidate => Text.lower candidate.text)
    candidates).map

private theorem sortedBy_commandCandidates (registry : Registry) (word : String) :
    SortedBy Text.lower (registry.names.filter (Text.Begins word))
      ((commandCandidates registry word).map Candidate.text) := by
  have htexts : (registry.commands.filterMap fun entry =>
      if Text.startsWithIgnoringCase entry.2.name word then
        some (Candidate.mk entry.2.name
          (entry.2.name ++ " - " ++ entry.2.description) .commandName)
      else none).map Candidate.text = registry.names.filter (Text.Begins word) := by
    rw [Registry.names]
    induction registry.commands with
    | nil => rfl
    | cons entry rest ih =>
        rw [List.filterMap_cons, List.map_cons, List.filter_cons, ← ih]
        simp only [Text.startsWithIgnoringCase_eq]
        by_cases hbegins : Text.Begins word entry.2.name <;> simp [hbegins]
  rw [← htexts]
  exact sortedBy_sortByText _

private theorem texts_optionForms (option : OptionSchema) :
    (optionForms option).map Candidate.text = option.spellings := by
  unfold optionForms OptionSchema.spellings
  cases option.short <;> rfl

private theorem sortedBy_optionCandidates (schema : CommandSchema) (word : String) :
    SortedBy Text.lower
      ((schema.options.flatMap OptionSchema.spellings).filter (Text.Begins word))
      ((optionCandidates (some schema) word).map Candidate.text) := by
  have htexts : ((schema.options.flatMap optionForms).filter fun candidate =>
      Text.startsWithIgnoringCase candidate.text word).map Candidate.text =
        (schema.options.flatMap OptionSchema.spellings).filter
          (Text.Begins word) := by
    simp only [Text.startsWithIgnoringCase_eq]
    calc
      _ = ((schema.options.flatMap optionForms).map Candidate.text).filter
            (Text.Begins word) := List.filter_map.symm
      _ = _ := by simp only [List.map_flatMap, texts_optionForms]
  rw [← htexts]
  exact sortedBy_sortByText _

instance (scope : Scope) (start name : String) : Decidable (Fits scope start name) :=
  inferInstanceAs (Decidable (_ ∧ _))

/-- The names of a directory's entries that fit, directories and files apart. -/
def fittingNames (scope : Scope) (start : String) (entries : List (String × Bool))
    (isDirectory : Bool) : List String :=
  (entries.filter fun entry => entry.2 = isDirectory ∧ Fits scope start entry.1).map
    Prod.fst

def pathTexts (typed : String) (directories files : List String) : List String :=
  directories.map (fun name => typed ++ name ++ "/") ++
    files.map (fun name => typed ++ name)

private theorem texts_pathCandidatesIn (scope : Scope) (typed start : String)
    (entries : List (String × Bool)) :
    ∃ directories files,
      SortedBy Text.lower (fittingNames scope start entries true) directories ∧
        SortedBy Text.lower (fittingNames scope start entries false) files ∧
        (pathCandidatesIn scope typed start entries).map Candidate.text =
          pathTexts typed directories files := by
  let fitting := entries.filter fun entry =>
    Text.startsWithIgnoringCase entry.1 start &&
    ((scope.showHidden.truthy || Text.startsWith start ".") ||
      !Text.startsWith entry.1 ".")
  have hsorted := sortedBy_mergeSort (fun entry : String × Bool =>
    Text.lower entry.1) fitting
  have hnames (isDirectory : Bool) :
      (fitting.filter (·.2 = isDirectory)).map Prod.fst =
        fittingNames scope start entries isDirectory := by
    unfold fittingNames
    rw [List.filter_filter]
    congr 2
    funext entry
    rw [Bool.eq_iff_iff, decide_eq_true_iff]
    simp [Fits, or_assoc]
  refine ⟨_, _, hnames true ▸ (hsorted.filter (·.2 = true)).map,
    hnames false ▸ (hsorted.filter (·.2 = false)).map, ?_⟩
  simp [pathCandidatesIn, pathTexts, fitting, Function.comp_def]

private theorem fittingNames_nodup {entries : List (String × Bool)}
    (hentries : (entries.map Prod.fst).Nodup) (scope : Scope) (start : String)
    (isDirectory : Bool) :
    (fittingNames scope start entries isDirectory).Nodup :=
  hentries.sublist (List.filter_sublist.map Prod.fst)

private theorem pathTexts_nodup {directories files : List String}
    (hdirectories : directories.Nodup) (hfiles : files.Nodup)
    (hslash : ∀ name ∈ files, '/' ∉ name.toList) (typed : String) :
    (pathTexts typed directories files).Nodup := by
  refine List.nodup_append.mpr ⟨hdirectories.map ?_, hfiles.map ?_, ?_⟩
  · intro first second hsame
    exact (String.append_right_inj _).mp ((String.append_left_inj _).mp hsame)
  · intro first second hsame
    exact (String.append_right_inj _).mp hsame
  · intro text hdirectory other hfile hsame
    obtain ⟨directory, -, rfl⟩ := List.mem_map.mp hdirectory
    obtain ⟨file, hmember, rfl⟩ := List.mem_map.mp hfile
    rw [String.append_assoc] at hsame
    have hname := (String.append_right_inj _).mp hsame
    refine hslash file hmember ?_
    rw [← hname]
    simp

/-- The completion replaces the longest end of the line that has no space. -/
structure Replaces (completion : Completion) (line : String) : Prop where
  stop : completion.start + completion.length = line.length
  word : line.toList.drop completion.start = (current line).toList
  spaceless : ' ' ∉ line.toList.drop completion.start
  longest : ∀ start < completion.start, ' ' ∈ line.toList.drop start

private theorem replaces_of_complete {scope : Scope} {line : String}
    {notes : List Journal.Note} {completion : Completion}
    (hcomplete : complete scope line = (notes, .ok completion)) :
    Replaces completion line := by
  obtain ⟨candidates, most, -, -, rfl⟩ := complete_ok hcomplete
  obtain ⟨hwhole, hspaceless, hends⟩ := splitLine_spec line.toList
  have hdrop := drop_splitLine line.toList
  refine ⟨?_, hdrop.trans String.toList_ofList.symm, ?_, ?_⟩
  · rw [← List.length_append, hwhole, String.length_toList]
  · rw [hdrop]
    exact hspaceless
  · intro start hstart
    dsimp only at hstart
    cases hlast : (splitLine line.toList).1.getLast? with
    | none =>
        rw [List.getLast?_eq_none_iff.mp hlast] at hstart
        cases hstart
    | some c =>
        obtain rfl := hends c hlast
        rw [← hwhole]
        exact mem_drop_of_getLast? hlast hstart _

/-- Completion succeeds with these texts, or with the first of them if there is a
limit. -/
def Yields (scope : Scope) (line : String) (most : Int) (texts : List String) :
    Prop :=
  ∃ notes completion, complete scope line = (notes, .ok completion) ∧
    completion.candidates.map Candidate.text = if 0 < most then texts.take most.toNat
      else texts

private theorem yields_of_candidates {scope : Scope} {line : String} {most : Int}
    (hmost : scope.maxCandidates = .int most) {candidates : List Candidate}
    (hcandidates : (candidatesOf scope line).2 = .ok candidates) :
    Yields scope line most (candidates.map Candidate.text) := by
  have hlimit : limit scope.maxCandidates = .ok (if 0 < most then some most.toNat
      else none) := by
    rw [hmost, limit_int]
  generalize hfound : candidatesOf scope line = found at hcandidates
  obtain ⟨notes, result⟩ := found
  subst hcandidates
  refine ⟨notes, _, complete_of_candidates hfound hlimit, ?_⟩
  split <;> simp [chosen]

theorem complete_ranks {scope : Scope} {changes : List Registry.Change}
    (hregistry : scope.registry = Registry.run changes) (hfiles : scope.files.Sound)
    {most : Int} (hmost : scope.maxCandidates = .int most) (line : String) :
    (∀ notes completion, complete scope line = (notes, .ok completion) →
      Replaces completion line) ∧
      ((analysisOf line).target = .commandName → ∃ texts,
        SortedBy Text.lower (scope.registry.names.filter
          (Text.Begins (current line))) texts ∧
          texts.Nodup ∧ Yields scope line most texts) ∧
      (∀ schema, (analysisOf line).target = .optionName →
        commandOf scope line = some schema →
        ∃ texts, SortedBy Text.lower
            ((schema.options.flatMap OptionSchema.spellings).filter
              (Text.Begins (current line)))
            texts ∧
          texts.Nodup ∧ Yields scope line most texts) ∧
      ∀ typed start entries, ListsFiles scope line →
        splitPath (current line) = (typed, start) →
        FileTree.hasZero (baseDirectory scope typed) = false →
        scope.files.list (baseDirectory scope typed) = .ok entries →
          ∃ directories files,
            SortedBy Text.lower (fittingNames scope start entries true) directories ∧
              SortedBy Text.lower (fittingNames scope start entries false) files ∧
              (pathTexts typed directories files).Nodup ∧
              Yields scope line most (pathTexts typed directories files) := by
  refine ⟨fun notes completion => replaces_of_complete, ?_, ?_, ?_⟩
  · intro htarget
    have hsorted := sortedBy_commandCandidates scope.registry (current line)
    have hnames : scope.registry.names.Nodup :=
      hregistry ▸ Registry.names_nodup changes
    refine ⟨_, hsorted, hsorted.nodup (hnames.filter _),
      yields_of_candidates hmost ?_⟩
    simp [candidatesOf, allCandidates, htarget]
  · intro schema htarget hcommand
    have hsorted := sortedBy_optionCandidates schema (current line)
    obtain ⟨name, -, hlookup⟩ := Option.bind_eq_some_iff.mp hcommand
    rw [hregistry] at hlookup
    obtain ⟨declaration, hschema⟩ := Registry.declared_of_lookup hlookup
    have hspellings := CommandSchema.spellings_nodup hschema
    refine ⟨_, hsorted, hsorted.nodup (hspellings.filter _),
      yields_of_candidates hmost ?_⟩
    rw [← hcommand]
    simp [candidatesOf, allCandidates, htarget, commandOf]
  · intro typed start entries hlists hsplit hzero hlist
    obtain ⟨directories, files, hdirectories, hplain, htexts⟩ :=
      texts_pathCandidatesIn scope typed start entries
    have hnames := hfiles.names_nodup hlist
    refine ⟨directories, files, hdirectories, hplain, ?_, ?_⟩
    · apply pathTexts_nodup
      · exact hdirectories.nodup (fittingNames_nodup hnames ..)
      · exact hplain.nodup (fittingNames_nodup hnames ..)
      · intro name hname
        obtain ⟨entry, hentry, rfl⟩ := List.mem_map.mp (hplain.perm.mem_iff.mp hname)
        obtain ⟨parent, node, -, hmember, -⟩ :=
          FileTree.mem_list hlist (List.mem_filter.mp hentry).1
        exact (hfiles.plain_name hmember).slashless
    · rw [← htexts]
      apply yields_of_candidates hmost
      rw [candidatesOf_files hlists, pathCandidates, hsplit]
      dsimp only
      rw [if_neg (by simp [hzero]), hlist]

def cornerScope : Scope :=
  { homeScope with
    registry := Registry.run [.register (.command Catalog.cd),
      .register (.command Catalog.pwd), .register (.command Catalog.cat)]
    maxCandidates := .int 1 }

/-- Two names begin with the word, and the one that was registered last comes
first. -/
theorem complete_ranks_first :
    cornerScope.files.Sound ∧ (analysisOf "C").target = .commandName ∧
      Yields cornerScope "C" 1 ["cat", "cd"] := by
  have hsound : cornerScope.files.Sound := ⟨by decide, by decide, by decide⟩
  have htarget : (analysisOf "C").target = .commandName := by decide
  have hnames : cornerScope.registry.names.filter (Text.Begins (current "C")) =
      ["cd", "cat"] := by
    decide +kernel
  obtain ⟨texts, hsorted, -, hyields⟩ :=
    (complete_ranks rfl hsound rfl "C").2.1 htarget
  rw [hnames] at hsorted
  have htexts : texts = ["cat", "cd"] := by
    refine (List.perm_pair.mp hsorted.perm).resolve_left ?_
    rintro rfl
    exact absurd (List.pairwise_pair.mp hsorted.ordered) (by decide +kernel)
  exact ⟨hsound, htarget, htexts ▸ hyields⟩

end Completion

end PipeShell
