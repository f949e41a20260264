import PipeShell.Proofs.CompletionResults
import PipeShell.Proofs.VerbatimWords

namespace PipeShell.Completion

private theorem target_of_mem_commandCandidates {registry : Registry} {word : String}
    {candidate : Candidate} (hcandidate : candidate ∈ commandCandidates
      registry word) :
    candidate.target = .commandName := by
  rw [commandCandidates, sortByText, List.mem_mergeSort] at hcandidate
  obtain ⟨entry, -, hoffered⟩ := List.mem_filterMap.mp hcandidate
  dsimp only at hoffered
  split at hoffered
  · cases hoffered
    rfl
  · cases hoffered

private theorem target_of_mem_optionForms {option : OptionSchema}
    {candidate : Candidate} (hcandidate : candidate ∈ optionForms option) :
    candidate.target = .optionName := by
  unfold optionForms at hcandidate
  cases hshort : option.short with
  | none =>
      rw [hshort] at hcandidate
      rw [List.mem_singleton.mp hcandidate]
  | some c =>
      rw [hshort] at hcandidate
      rcases List.mem_pair.mp hcandidate with rfl | rfl <;> rfl

private theorem target_of_mem_optionCandidates {schema : Option CommandSchema}
    {word : String} {candidate : Candidate}
    (hcandidate : candidate ∈ optionCandidates schema word) :
    candidate.target = .optionName := by
  cases schema with
  | none => cases hcandidate
  | some schema =>
      rw [optionCandidates, sortByText, List.mem_mergeSort] at hcandidate
      obtain ⟨option, -, hform⟩ :=
        List.mem_flatMap.mp (List.mem_filter.mp hcandidate).1
      exact target_of_mem_optionForms hform

variable {scope : Scope} {line : String} {candidate : Candidate}
  {candidates : List Candidate}

private theorem target_of_mem_argumentCandidates {word : String}
    {analysis : Analysis} (hoffered :
      (argumentCandidates scope line word analysis).2 = .ok candidates)
    (hcandidate : candidate ∈ candidates) : candidate.target = .argument := by
  unfold argumentCandidates at hoffered
  split at hoffered
  · cases hoffered
    cases hcandidate
  · dsimp only at hoffered
    split at hoffered
    · cases hoffered
      obtain ⟨text, -, rfl⟩ := List.mem_map.mp hcandidate
      rfl
    · cases hoffered
    · cases hoffered
      cases hcandidate

theorem listsFiles_of_path
    (hcandidates : (candidatesOf scope line).2 = .ok candidates)
    (hcandidate : candidate ∈ candidates) (hkind : candidate.target = .path) :
    ListsFiles scope line := by
  cases htarget : (analysisOf line).target with
  | path => exact .inl htarget
  | commandName =>
      simp only [candidatesOf, allCandidates, htarget,
        Except.ok.injEq] at hcandidates
      subst hcandidates
      cases hkind.symm.trans (target_of_mem_commandCandidates hcandidate)
  | optionName =>
      simp only [candidatesOf, allCandidates, htarget,
        Except.ok.injEq] at hcandidates
      subst hcandidates
      cases hkind.symm.trans (target_of_mem_optionCandidates hcandidate)
  | argument =>
      by_contra hlists
      have hsome : (argumentCandidates scope line (current line)
          (analysisOf line)).2 ≠ .ok [] :=
        fun hnone => hlists (.inr ⟨htarget, hnone⟩)
      rw [candidatesOf_argument htarget hsome] at hcandidates
      cases hkind.symm.trans (target_of_mem_argumentCandidates hcandidates
        hcandidate)

theorem exists_entry_of_path {notes : List Journal.Note} {completion : Completion}
    (hcomplete : complete scope line = (notes, .ok completion))
    (hcandidate : candidate ∈ completion.candidates)
    (hkind : candidate.target = .path) :
    ∃ entries name isDirectory, scope.files.list (baseOf scope line) = .ok entries ∧
      (name, isDirectory) ∈ entries ∧
        candidate = offer (splitPath (current line)).1 name isDirectory := by
  obtain ⟨candidates, most, hcandidates, -, rfl⟩ := complete_ok hcomplete
  have hmember : candidate ∈ candidates := by
    unfold chosen at hcandidate
    split at hcandidate
    · exact List.mem_of_mem_take hcandidate
    · exact hcandidate
  have hresult : (candidatesOf scope line).2 = .ok candidates := by rw [hcandidates]
  have hlists := listsFiles_of_path hresult hmember hkind
  rw [candidatesOf_files hlists] at hresult
  generalize hpaths : pathCandidates scope (current line) = paths at hresult
  obtain ⟨noted, found⟩ := paths
  subst hresult
  obtain ⟨entries, name, isDirectory, hlist, hentry, -, hmade⟩ :=
    (mem_pathCandidates hpaths).mp hmember
  exact ⟨entries, name, isDirectory, hlist, hentry, hmade⟩

/-- The line before the word that a completion replaces. -/
def before (completion : Completion) (line : String) : String :=
  String.ofList (line.toList.take completion.start)

def replaced (completion : Completion) (line : String) : String :=
  String.ofList (line.toList.drop completion.start)

/-- The line after a candidate has been accepted. -/
def accept (completion : Completion) (line : String) (candidate : Candidate) :
    String :=
  before completion line ++ candidate.text

/-- The shell reads one more word in the accepted line, and that is the candidate. -/
def ReadsBack (completion : Completion) (line : String) (candidate : Candidate)
    (tokens : List Token) : Prop :=
  ∃ token, token.kind = .word ∧ token.value = candidate.text ∧
    Token.tokenize (accept completion line candidate) = .ok (tokens ++ [token])

theorem before_eq_lead {notes : List Journal.Note} {completion : Completion}
    (hcomplete : complete scope line = (notes, .ok completion)) :
    before completion line = lead line := by
  obtain ⟨candidates, most, -, -, rfl⟩ := complete_ok hcomplete
  exact congrArg String.ofList (take_splitLine line.toList)

theorem replaced_eq_current {notes : List Journal.Note} {completion : Completion}
    (hcomplete : complete scope line = (notes, .ok completion)) :
    replaced completion line = current line := by
  obtain ⟨candidates, most, -, -, rfl⟩ := complete_ok hcomplete
  exact congrArg String.ofList (drop_splitLine line.toList)

def wordMarks : List Char := ['"', '\'', '\\', '|', '<', '>']

private theorem mem_typed {word : String} {c : Char}
    (hc : c ∈ (splitPath word).1.toList) :
    c ∈ word.toList ∨ c = '~' ∨ c = '/' := by
  obtain ⟨hwhole, -, -⟩ :=
    Text.cutLastChars_spec '/' (if word = "~" then "~/" else word).toList
  rw [splitPath_eq] at hc
  dsimp only at hc
  rw [String.toList_ofList] at hc
  have hmember := List.mem_append_left
    (Text.cutLastChars '/' (if word = "~" then "~/" else word).toList).2 hc
  rw [hwhole] at hmember
  split at hmember
  · exact .inr (List.mem_pair.mp hmember)
  · exact .inl hmember

theorem typed_unmarked {word : String} (hspace : ' ' ∉ word.toList)
    (hmarks : ∀ c ∈ word.toList, c ∉ wordMarks) :
    ∀ c ∈ (splitPath word).1.toList, c ∉ Token.marks := by
  intro c hc
  rcases mem_typed hc with hword | rfl | rfl
  · have hother : c ≠ ' ' := by
      rintro rfl
      exact hspace hword
    have hfree := hmarks c hword
    simp only [wordMarks, Token.marks, List.mem_cons, List.not_mem_nil, or_false,
      not_or] at hfree ⊢
    obtain ⟨hdouble, hsingle, hslash, hpipe, hin, hout⟩ := hfree
    exact ⟨hother, hpipe, hin, hout, hdouble, hsingle, hslash⟩
  · decide
  · decide

private theorem verbatim_offer_iff {typed name : String}
    (htyped : ∀ c ∈ typed.toList, c ∉ Token.marks) (hname : '\t' ∉ name.toList)
    (isDirectory : Bool) :
    Token.Verbatim (offer typed name isDirectory).text.toList ↔
      (∀ c ∈ name.toList, c ∉ Token.marks) ∧ '\t' ∉ typed.toList ∧
        (offer typed name isDirectory).text ≠ "--" := by
  have hending : ∀ c ∈ (ending isDirectory).toList, c = '/' := by
    cases isDirectory <;> simp [ending]
  have htext : (offer typed name isDirectory).text.toList =
      typed.toList ++ name.toList ++ (ending isDirectory).toList := by
    simp [offer]
  have hdashes : (offer typed name isDirectory).text.toList = ['-', '-'] ↔
      (offer typed name isDirectory).text = "--" :=
    @String.toList_inj _ "--"
  constructor
  · rintro ⟨hunmarked, hfree, hnotEnd⟩
    refine ⟨?_, ?_, mt hdashes.mpr hnotEnd⟩
    · intro c hc
      exact hunmarked c (by simp [htext, hc])
    · intro htab
      exact hfree (by simp [htext, htab])
  · rintro ⟨hunmarked, hfree, hnotEnd⟩
    refine ⟨?_, ?_, mt hdashes.mp hnotEnd⟩
    · intro c hc
      rw [htext, List.append_assoc, List.mem_append, List.mem_append] at hc
      rcases hc with hc | hc | hc
      · exact htyped c hc
      · exact hunmarked c hc
      · rw [hending c hc]
        decide
    · rw [htext, List.append_assoc, List.mem_append, List.mem_append]
      rintro (htab | htab | htab)
      · exact hfree htab
      · exact hname htab
      · cases hending _ htab

/-- An accepted path is read back exactly if the space before it separates and the
path holds nothing that the shell would take in another way. -/
theorem accepted_path_readsBack_iff {scope : Scope} (hfiles : scope.files.Sound)
    (htabs : ∀ entry ∈ scope.files.entries, ∀ name ∈ entry.1, '\t' ∉ name.toList)
    {line : String} {notes : List Journal.Note} {completion : Completion}
    (hcomplete : complete scope line = (notes, .ok completion)) {tokens : List Token}
    (hbefore : Token.tokenize (before completion line) = .ok tokens)
    (hword : ∀ c ∈ (replaced completion line).toList, c ∉ wordMarks)
    {candidate : Candidate} (hcandidate : candidate ∈ completion.candidates)
    (hkind : candidate.target = .path) : ∃ entries typed start name isDirectory,
      splitPath (replaced completion line) = (typed, start) ∧
      scope.files.list (baseDirectory scope typed) = .ok entries ∧
      (name, isDirectory) ∈ entries ∧ candidate = offer typed name isDirectory ∧
      (ReadsBack completion line candidate tokens ↔
        (∀ token ∈ tokens, token.span.stop < completion.start) ∧
          (∀ c ∈ name.toList, c ∉ Token.marks) ∧ '\t' ∉ typed.toList ∧
            candidate.text ≠ "--") := by
  obtain ⟨entries, name, isDirectory, hlist, hentry, rfl⟩ :=
    exists_entry_of_path hcomplete hcandidate hkind
  obtain ⟨-, hspaceless, hends⟩ := splitLine_spec line.toList
  have hstart : completion.start = (splitLine line.toList).1.length := by
    obtain ⟨candidates, most, -, -, rfl⟩ := complete_ok hcomplete
    rfl
  rw [replaced_eq_current hcomplete] at hword ⊢
  refine ⟨entries, (splitPath (current line)).1, (splitPath (current line)).2, name,
    isDirectory, rfl, hlist, hentry, rfl, ?_⟩
  obtain ⟨parent, node, -, hmember, -⟩ := FileTree.mem_list hlist hentry
  have hname := hfiles.plain_name hmember
  have htab : '\t' ∉ name.toList :=
    htabs _ hmember name (List.mem_append_right _ List.mem_cons_self)
  have htyped : ∀ c ∈ (splitPath (current line)).1.toList, c ∉ Token.marks := by
    refine typed_unmarked ?_ hword
    rw [current, String.toList_ofList]
    exact hspaceless
  have hsome : (offer (splitPath (current line)).1 name isDirectory).text.toList ≠
      [] := by
    simp [offer, hname.nonempty]
  have hread : Token.tokenizeChars (splitLine line.toList).1 = .ok tokens := by
    rw [before_eq_lead hcomplete, Token.tokenize, lead,
      String.toList_ofList] at hbefore
    exact hbefore
  rw [← verbatim_offer_iff htyped htab isDirectory, hstart]
  rw [ReadsBack, accept, before_eq_lead hcomplete, Token.tokenize,
    String.toList_append, lead, String.toList_ofList]
  have hiff := Token.tokenizeChars_append_iff hread hends hsome
  rw [String.ofList_toList] at hiff
  exact hiff

def holding (name : String) : Scope :=
  { homeScope with files := ⟨[(["home"], .directory), (["home", name], .file [])]⟩ }

theorem sound_holding {name : String} (hplain : Path.Plain name)
    (hshort : FileTree.nameTooLong name = false)
    (hzero : FileTree.hasZero name = false) : (holding name).files.Sound := by
  have hhome : Path.Plain "home" ∧ FileTree.nameTooLong "home" = false ∧
      FileTree.hasZero "home" = false := by decide
  refine ⟨?_, ?_, ?_⟩
  · simp [holding]
  · simp [holding, hhome, hplain]
  · simp [holding, hhome, hshort, hzero]

theorem list_holding (name : String) :
    (holding name).files.list "/home" = .ok [(name, false)] :=
  congrArg Except.ok (List.mergeSort_singleton _)

theorem complete_holding {name line typed start : String}
    (hlists : ListsFiles (holding name) line)
    (hsplit : splitPath (current line) = (typed, start))
    (hbase : baseDirectory (holding name) typed = "/home")
    (hfits : Fits (holding name) start name) :
    ∃ notes completion, complete (holding name) line = (notes, .ok completion) ∧
      offer typed name false ∈ completion.candidates := by
  have hpaths : (candidatesOf (holding name) line).2 =
      .ok (pathCandidatesIn (holding name) typed start [(name, false)]) := by
    rw [candidatesOf_files hlists, pathCandidates, hsplit]
    dsimp only
    rw [hbase, list_holding, if_neg (by decide)]
  generalize hfound : candidatesOf (holding name) line = found at hpaths
  obtain ⟨notes, result⟩ := found
  subst hpaths
  refine ⟨notes, _, complete_of_candidates hfound (limit_int 0), ?_⟩
  exact mem_pathCandidatesIn.mpr ⟨name, false, List.mem_cons_self, hfits, rfl⟩

theorem accepted_path_readsBack_iff_plain :
    ∃ notes completion, complete (holding "b") "cat B" = (notes, .ok completion) ∧
      offer "" "b" false ∈ completion.candidates ∧
      ReadsBack completion "cat B" (offer "" "b" false)
        [⟨.word, "cat", ⟨0, 3⟩, false⟩] := by
  have hlists : ListsFiles (holding "b") "cat B" := .inr ⟨by decide, by rfl⟩
  have hsplit : splitPath (current "cat B") = ("", "B") := by decide
  have hfits : Fits (holding "b") "B" "b" :=
    ⟨by decide +kernel, .inr (.inr (by decide))⟩
  obtain ⟨notes, completion, hcomplete, hcandidate⟩ :=
    complete_holding hlists hsplit rfl hfits
  have hsound : (holding "b").files.Sound :=
    sound_holding (by decide) (by decide) (by decide)
  have hreplaced := replaced_eq_current hcomplete
  have hlead : Token.tokenize (before completion "cat B") =
      .ok [⟨.word, "cat", ⟨0, 3⟩, false⟩] := by
    rw [before_eq_lead hcomplete]
    rfl
  have hword : ∀ c ∈ (replaced completion "cat B").toList, c ∉ wordMarks := by
    rw [hreplaced]
    exact Token.unmarked_of_all (by decide)
  obtain ⟨entries, typed, start, name, isDirectory, htyped, hlist, hentry,
    -, hiff⟩ :=
    accepted_path_readsBack_iff hsound (by decide) hcomplete hlead hword
      hcandidate rfl
  rw [hreplaced, hsplit] at htyped
  cases htyped
  cases (list_holding "b").symm.trans hlist
  cases List.mem_singleton.mp hentry
  have hstart : completion.start = 4 := by
    obtain ⟨candidates, most, -, -, rfl⟩ := complete_ok hcomplete
    rfl
  refine ⟨notes, completion, hcomplete, hcandidate,
    hiff.mpr ⟨?_, ?_, by decide, by decide⟩⟩
  · rw [hstart]
    decide
  · exact Token.unmarked_of_all (by decide)

/-- The file is offered for the line, and accepting it is not read back. -/
def Misread (name line : String) : Prop :=
  (holding name).files.Sound ∧ '\t' ∉ name.toList ∧
    ∃ notes completion tokens, complete (holding name) line =
      (notes, .ok completion) ∧
      Token.tokenize (before completion line) = .ok tokens ∧
      (∀ c ∈ (replaced completion line).toList, c ∉ wordMarks) ∧
      ∃ candidate ∈ completion.candidates, candidate.target = .path ∧
        ¬ReadsBack completion line candidate tokens

private theorem misread_of {name line : String} (typed start : String)
    {tokens : List Token} (hsound : (holding name).files.Sound)
    (htab : '\t' ∉ name.toList) (hlists : ListsFiles (holding name) line)
    (hsplit : splitPath (current line) = (typed, start))
    (hbase : baseDirectory (holding name) typed = "/home")
    (hfits : Fits (holding name) start name)
    (hlead : Token.tokenize (lead line) = .ok tokens)
    (hword : ∀ c ∈ (current line).toList, c ∉ wordMarks)
    (hread : ∀ token, token.value = typed ++ name →
      Token.tokenize (lead line ++ (typed ++ name)) = .ok (tokens ++ [token]) →
        token.kind ≠ .word) :
    Misread name line := by
  obtain ⟨notes, completion, hcomplete, hcandidate⟩ :=
    complete_holding hlists hsplit hbase hfits
  have hbefore := before_eq_lead hcomplete
  refine ⟨hsound, htab, notes, completion, tokens, hcomplete, ?_, ?_, _,
    hcandidate, rfl, ?_⟩
  · rw [hbefore]
    exact hlead
  · rw [replaced_eq_current hcomplete]
    exact hword
  · rintro ⟨token, hkind, hvalue, haccepted⟩
    have htext : (offer typed name false).text = typed ++ name := by
      simp [offer, ending]
    rw [accept, hbefore, htext] at haccepted
    exact hread token (hvalue.trans htext) haccepted hkind

/-- A space in the name, a name that ends the options, a space before the word that
is escaped, and a tab in a directory that leads back. -/
theorem accepted_path_misread :
    Misread "a b" "cat a" ∧ Misread "--" "head < -" ∧ Misread "b" "cat \\ b" ∧
      Misread "b" "cat \t/../b" := by
  refine ⟨?_, ?_, ?_, ?_⟩
  · refine misread_of "" "a" (sound_holding (by decide) (by decide) (by decide))
      (by decide)
      (.inr ⟨by decide, by rfl⟩) (by decide) rfl
        ⟨by decide +kernel, .inr (.inr (by decide))⟩ rfl
      (Token.unmarked_of_all (by decide)) ?_
    intro token _ hread
    cases hread
  · refine misread_of "" "-" (sound_holding (by decide) (by decide) (by decide))
      (by decide)
      (.inl (by decide)) (by decide) rfl ⟨by decide +kernel, .inr (.inr (by decide))⟩
        rfl
      (Token.unmarked_of_all (by decide)) ?_
    intro token _ hread
    cases hread
    decide
  · refine misread_of "" "b" (sound_holding (by decide) (by decide) (by decide))
      (by decide)
      (.inr ⟨by decide, by rfl⟩) (by decide) rfl
        ⟨by decide +kernel, .inr (.inr (by decide))⟩ rfl
      (Token.unmarked_of_all (by decide)) ?_
    intro token _ hread
    cases hread
  · refine misread_of "\t/../" "b"
      (sound_holding (by decide) (by decide) (by decide)) (by decide)
      (.inr ⟨by decide, by rfl⟩) (by decide) rfl
        ⟨by decide +kernel, .inr (.inr (by decide))⟩ rfl
      (Token.unmarked_of_all (by decide)) ?_
    intro token _ hread
    cases hread

end PipeShell.Completion
