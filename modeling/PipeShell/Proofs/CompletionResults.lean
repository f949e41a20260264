import PipeShell.Proofs.FileCandidates

namespace PipeShell.Completion

def lead (line : String) : String := String.ofList (splitLine line.toList).1

def current (line : String) : String := String.ofList (splitLine line.toList).2

def analysisOf (line : String) : Analysis := analyze (lead line) (current line)

theorem splitLine_spec (line : List Char) :
    (splitLine line).1 ++ (splitLine line).2 = line ∧ ' ' ∉ (splitLine line).2 ∧
      ∀ c ∈ (splitLine line).1.getLast?, c = ' ' :=
  Text.cutLastChars_spec ' ' line

theorem take_splitLine (line : List Char) :
    line.take (splitLine line).1.length = (splitLine line).1 := by
  have hleft : ((splitLine line).1 ++ (splitLine line).2).take
      (splitLine line).1.length =
        (splitLine line).1 := List.take_left
  rwa [(splitLine_spec line).1] at hleft

theorem drop_splitLine (line : List Char) :
    line.drop (splitLine line).1.length = (splitLine line).2 := by
  have hleft : ((splitLine line).1 ++ (splitLine line).2).drop
      (splitLine line).1.length =
        (splitLine line).2 := List.drop_left
  rwa [(splitLine_spec line).1] at hleft

/-- The command that the line names before the word. -/
def commandOf (scope : Scope) (line : String) : Option CommandSchema :=
  (analysisOf line).command.bind scope.registry.lookup

/-- The directory of the word, where its entries are looked for. -/
def baseOf (scope : Scope) (line : String) : String :=
  baseDirectory scope (splitPath (current line)).1

def candidatesOf (scope : Scope) (line : String) :
    List Journal.Note × Except Fault (List Candidate) :=
  allCandidates scope line (current line) (analysisOf line)

def chosen (most : Option Nat) (candidates : List Candidate) : List Candidate :=
  match most with
  | some count => candidates.take count
  | none => candidates

variable {scope : Scope} {line : String} {notes : List Journal.Note} {fault : Fault}
  {candidates : List Candidate}

theorem complete_eq (scope : Scope) (line : String) :
    complete scope line = ((candidatesOf scope line).1, do
      let candidates ← (candidatesOf scope line).2
      let most ← limit scope.maxCandidates
      return ⟨chosen most candidates, (splitLine line.toList).1.length,
        (splitLine line.toList).2.length⟩) := by
  unfold complete candidatesOf analysisOf lead current
  obtain ⟨before, word⟩ := splitLine line.toList
  dsimp only
  obtain ⟨notes, found⟩ := allCandidates scope line (String.ofList word)
    (analyze (String.ofList before) (String.ofList word))
  rfl

theorem complete_of_candidates
    (hcandidates : candidatesOf scope line = (notes, .ok candidates))
    {most : Option Nat} (hmost : limit scope.maxCandidates = .ok most) :
    complete scope line = (notes,
      .ok ⟨chosen most candidates, (splitLine line.toList).1.length,
        (splitLine line.toList).2.length⟩) := by
  rw [complete_eq, hcandidates, hmost]
  rfl

theorem complete_ok {completion : Completion}
    (hcomplete : complete scope line = (notes, .ok completion)) :
    ∃ candidates most, candidatesOf scope line = (notes, .ok candidates) ∧
      limit scope.maxCandidates = .ok most ∧
      completion = ⟨chosen most candidates, (splitLine line.toList).1.length,
        (splitLine line.toList).2.length⟩ := by
  cases hcandidates : candidatesOf scope line with
  | mk found result =>
      rw [complete_eq, hcandidates] at hcomplete
      cases result with
      | error fault => cases hcomplete
      | ok candidates =>
          cases hmost : limit scope.maxCandidates with
          | error fault =>
              rw [hmost] at hcomplete
              cases hcomplete
          | ok most =>
              rw [hmost] at hcomplete
              cases hcomplete
              exact ⟨candidates, most, rfl, rfl, rfl⟩

/-- What the command of the line offers by itself. -/
def offeredBy (scope : Scope) (line : String) (schema : CommandSchema) :
    Except Fault (List String) := do
  let command ← schema.newInstance
  suggestions scope command line (current line) (analysisOf line).wordIndex

/-- The line is completed with the names of files: it asks for a path, or it asks for
an argument and the command has none to offer. -/
def ListsFiles (scope : Scope) (line : String) : Prop :=
  (analysisOf line).target = .path ∨
    (analysisOf line).target = .argument ∧
      (argumentCandidates scope line (current line) (analysisOf line)).2 = .ok []

theorem candidatesOf_files (hlists : ListsFiles scope line) :
    (candidatesOf scope line).2 = (pathCandidates scope (current line)).2 := by
  unfold candidatesOf allCandidates
  rcases hlists with hpath | ⟨hargument, hnone⟩
  · rw [hpath]
  · rw [hargument]
    generalize argumentCandidates scope line (current line) (analysisOf line) =
      offered at hnone ⊢
    obtain ⟨notes, result⟩ := offered
    subst hnone
    obtain ⟨more, result⟩ := pathCandidates scope (current line)
    rfl

theorem candidatesOf_argument (htarget : (analysisOf line).target = .argument)
    (hsome : (argumentCandidates scope line (current line) (analysisOf line)).2 ≠
      .ok []) :
    candidatesOf scope line = argumentCandidates scope line (current line)
      (analysisOf line) := by
  unfold candidatesOf allCandidates
  rw [htarget]
  generalize argumentCandidates scope line (current line) (analysisOf line) =
    offered at hsome ⊢
  obtain ⟨notes, result⟩ := offered
  cases result with
  | error fault => rfl
  | ok candidates =>
      cases candidates with
      | nil => exact absurd rfl hsome
      | cons first rest => rfl

private theorem pathCandidates_error_iff {word : String} :
    (pathCandidates scope word).2 = .error fault ↔
      fault = .zeroInPath ∧
        FileTree.hasZero (baseDirectory scope (splitPath word).1) = true := by
  unfold pathCandidates
  dsimp only
  split
  · next hzero => simp [hzero, eq_comm]
  · next hzero => split <;> simp [hzero]

theorem argumentCandidates_error_iff :
    (argumentCandidates scope line (current line) (analysisOf line)).2 =
      .error fault ↔
      ∃ schema message, commandOf scope line = some schema ∧
        fault = .cancelled message ∧
        offeredBy scope line schema = .error fault := by
  unfold argumentCandidates
  rw [← commandOf]
  cases hcommand : commandOf scope line with
  | none => simp
  | some schema =>
      dsimp only
      rw [← offeredBy]
      cases hoffered : offeredBy scope line schema with
      | ok texts =>
          constructor
          · exact nofun
          · rintro ⟨_, message, ⟨⟩, -, hfault⟩
            cases hoffered.symm.trans hfault
      | error failure =>
          constructor
          · intro hfails
            cases failure with
            | cancelled message =>
                cases hfails
                exact ⟨schema, message, rfl, rfl, hoffered⟩
            | _ => cases hfails
          · rintro ⟨_, message, ⟨⟩, rfl, hfault⟩
            cases hoffered.symm.trans hfault
            rfl

private theorem candidatesOf_error_iff :
    (candidatesOf scope line).2 = .error fault ↔
      (analysisOf line).target = .argument ∧
          (argumentCandidates scope line (current line) (analysisOf line)).2 =
            .error fault ∨
        ListsFiles scope line ∧ (pathCandidates scope (current line)).2 =
          .error fault := by
  cases htarget : (analysisOf line).target with
  | commandName => simp [candidatesOf, allCandidates, ListsFiles, htarget]
  | optionName => simp [candidatesOf, allCandidates, ListsFiles, htarget]
  | path =>
      have hlists : ListsFiles scope line := .inl htarget
      simp [candidatesOf_files hlists, hlists]
  | argument =>
      -- An empty offer, unlike one that fails, sends the line on to the files.
      by_cases hnone : (argumentCandidates scope line (current line)
        (analysisOf line)).2 = .ok []
      · have hlists : ListsFiles scope line := .inr ⟨htarget, hnone⟩
        simp [candidatesOf_files hlists, hlists, hnone]
      · simp [candidatesOf_argument htarget hnone, ListsFiles, htarget, hnone]

inductive Fails (scope : Scope) (line : String) : Fault → Prop
  | cancelled {schema : CommandSchema} {message : String}
      (htarget : (analysisOf line).target = .argument)
      (hcommand : commandOf scope line = some schema)
      (hoffered : offeredBy scope line schema = .error (.cancelled message)) :
      Fails scope line (.cancelled message)
  | zero (hlists : ListsFiles scope line)
      (hzero : FileTree.hasZero (baseOf scope line) = true) :
      Fails scope line .zeroInPath
  /-- There are candidates, but the limit is no number of candidates. -/
  | limit {candidates : List Candidate} {fault : Fault}
      (hcandidates : (candidatesOf scope line).2 = .ok candidates)
      (hcount : ∀ count, scope.maxCandidates ≠ .int count)
      (hlimit : limit scope.maxCandidates = .error fault) : Fails scope line fault

theorem limit_int (count : Int) :
    limit (.int count) = .ok (if 0 < count then some count.toNat else none) := rfl

/-- Completion fails for these reasons and for no other. -/
theorem complete_error_iff (scope : Scope) (line : String) (fault : Fault) :
    (complete scope line).2 = .error fault ↔ Fails scope line fault := by
  rw [complete_eq]
  constructor
  · intro hfails
    cases hcandidates : (candidatesOf scope line).2 with
    | error failure =>
        rw [hcandidates] at hfails
        cases hfails
        rcases candidatesOf_error_iff.mp hcandidates with
          ⟨htarget, hargument⟩ | ⟨hlists, hpath⟩
        · obtain ⟨schema, message, hcommand, rfl, hoffered⟩ :=
            argumentCandidates_error_iff.mp hargument
          exact .cancelled htarget hcommand hoffered
        · obtain ⟨rfl, hzero⟩ := pathCandidates_error_iff.mp hpath
          exact .zero hlists hzero
    | ok candidates =>
        cases hlimit : limit scope.maxCandidates with
        | ok most =>
            rw [hcandidates, hlimit] at hfails
            cases hfails
        | error failure =>
            rw [hcandidates, hlimit] at hfails
            cases hfails
            refine .limit hcandidates ?_ hlimit
            intro count hcount
            rw [hcount, limit_int] at hlimit
            cases hlimit
  · intro hfails
    cases hfails with
    | cancelled htarget hcommand hoffered =>
        have hargument := argumentCandidates_error_iff.mpr
          ⟨_, _, hcommand, rfl, hoffered⟩
        rw [candidatesOf_error_iff.mpr (.inl ⟨htarget, hargument⟩)]
        rfl
    | zero hlists hzero =>
        have hpath := pathCandidates_error_iff.mpr ⟨rfl, hzero⟩
        rw [candidatesOf_error_iff.mpr (.inr ⟨hlists, hpath⟩)]
        rfl
    | limit hcandidates hcount hlimit =>
        rw [hcandidates, hlimit]
        rfl

theorem complete_zero_in_directory :
    (complete homeScope "cat a\x00/").2 = .error .zeroInPath := by
  rfl

end PipeShell.Completion
