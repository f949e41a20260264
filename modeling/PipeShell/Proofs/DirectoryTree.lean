import PipeShell.Proofs.Effects
import PipeShell.Proofs.Paths

/-! Directories last. Whatever a machine writes goes to files, so that a name which
stands for a directory does so before and after, and no other name comes to stand for
one. -/

namespace PipeShell

open Channel (Writer)

namespace FileTree

def SameDirectories (tree other : FileTree) : Prop :=
  ∀ names, tree.get? names = some .directory ↔ other.get? names = some .directory

variable {tree other third : FileTree} {names : List String}

theorem SameDirectories.refl (tree : FileTree) : tree.SameDirectories tree :=
  fun _ => Iff.rfl

theorem SameDirectories.trans (hfirst : tree.SameDirectories other)
    (hsecond : other.SameDirectories third) : tree.SameDirectories third :=
  fun names => (hfirst names).trans (hsecond names)

theorem sameDirectories_set (hfile : tree.get? names ≠ some .directory)
    (content : List UInt8) :
    tree.SameDirectories (tree.set names (.file content)) := by
  have hroot : names ≠ [] := by
    intro h
    exact hfile (h ▸ rfl)
  intro found
  by_cases hsame : found = names
  · subst hsame
    rw [get?_set_self hroot]
    exact ⟨fun h => absurd h hfile, fun h => nomatch h⟩
  · rw [get?_set_of_ne hsame]

theorem sameDirectories_openForWriting {path : String} {append : Bool}
    (hopen : tree.openForWriting path append = .ok (other, names)) :
    tree.SameDirectories other ∧ other.get? names ≠ some .directory := by
  have hset {parent : List String} {name : String}
      (hfile : tree.get? (parent ++ [name]) ≠ some .directory) :
      tree.SameDirectories (tree.set (parent ++ [name]) (.file [])) ∧
        (tree.set (parent ++ [name]) (.file [])).get? (parent ++ [name]) ≠
          some .directory :=
    ⟨sameDirectories_set hfile [], by rw [get?_set_self (by simp)]; nofun⟩
  unfold openForWriting at hopen
  split at hopen
  · cases hopen
  · simp only at hopen
    split at hopen
    · cases hopen
    · next content hget =>
        cases hopen
        cases append with
        | true => exact ⟨.refl tree, by rw [if_pos rfl, hget]; nofun⟩
        | false => exact hset (by rw [hget]; nofun)
    · next hget =>
        cases hopen
        exact hset (by rw [hget]; nofun)

private theorem present_openForWriting {path : String} {append : Bool}
    (hopen : tree.openForWriting path append = .ok (other, names)) :
    (∀ found, tree.get? found ≠ none → other.get? found ≠ none) ∧
      other.get? names ≠ none := by
  have hset {parent : List String} {name : String} :
      (∀ found, tree.get? found ≠ none →
        (tree.set (parent ++ [name]) (.file [])).get? found ≠ none) ∧
        (tree.set (parent ++ [name]) (.file [])).get? (parent ++ [name]) ≠ none := by
    have hself : (tree.set (parent ++ [name]) (.file [])).get? (parent ++ [name]) ≠
        none := by
      rw [get?_set_self (by simp)]
      exact Option.some_ne_none _
    refine ⟨fun found hthere => ?_, hself⟩
    by_cases hsame : found = parent ++ [name]
    · exact hsame ▸ hself
    · rwa [get?_set_of_ne hsame]
  unfold openForWriting at hopen
  split at hopen
  · cases hopen
  · simp only at hopen
    split at hopen
    · cases hopen
    · next hget =>
        cases hopen
        cases append with
        | true => exact ⟨fun _ hthere => hthere, by rw [if_pos rfl, hget]; simp⟩
        | false => exact hset
    · cases hopen
      exact hset

theorem SameDirectories.walk (hsame : tree.SameDirectories other)
    {current parts : List String}
    (hwalk : tree.walk current parts = .ok (names, .directory)) :
    other.walk current parts = .ok (names, .directory) := by
  induction parts generalizing current with
  | nil =>
      obtain ⟨rfl, hget⟩ := walk_nil_ok hwalk
      rw [FileTree.walk, (hsame current).mp hget]
  | cons part rest ih =>
      obtain ⟨hdirectory, next, henter, hrest⟩ := walk_cons_ok hwalk
      rw [walk_cons ((hsame current).mp hdirectory), henter]
      exact ih hrest

theorem isDirectory_iff {path : String} :
    tree.isDirectory path = true ↔
      hasZero path = false ∧ path ≠ "" ∧
        ∃ names, tree.walk [] (Text.split '/' path) =
        .ok (names, .directory) := by
  unfold isDirectory locate
  by_cases hempty : path = ""
  · simp [hempty]
  · rw [if_neg hempty]
    rcases tree.walk [] (Text.split '/' path) with
      fault | ⟨names, content | _⟩ <;> simp [hempty]

theorem SameDirectories.isDirectory (hsame : tree.SameDirectories other)
    {path : String} (hdirectory : tree.isDirectory path = true) :
    other.isDirectory path = true := by
  rw [isDirectory_iff] at hdirectory ⊢
  obtain ⟨hzero, hsome, names, hwalk⟩ := hdirectory
  exact ⟨hzero, hsome, names, hsame.walk hwalk⟩

def Grows (tree other : FileTree) : Prop :=
  ∀ names, tree.get? names ≠ none → other.get? names = tree.get? names

theorem Grows.refl (tree : FileTree) : tree.Grows tree :=
  fun _ _ => rfl

private theorem Grows.trans (hfirst : tree.Grows other)
    (hsecond : other.Grows third) :
    tree.Grows third := by
  intro names hthere
  have hkept := hfirst names hthere
  rw [← hkept] at hthere ⊢
  exact hsecond names hthere

private theorem grows_set (hnew : tree.get? names = none) (node : Node) :
    tree.Grows (tree.set names node) := by
  intro found hthere
  have hother : found ≠ names := by
    rintro rfl
    exact hthere hnew
  exact get?_set_of_ne hother node

theorem walk_filter {current parts : List String}
    (hwalk : tree.walk current (parts.filter (· ≠ "")) = .ok (names, .directory)) :
    tree.walk current parts = .ok (names, .directory) := by
  induction parts generalizing current with
  | nil => exact hwalk
  | cons part rest ih =>
      by_cases hempty : part = ""
      · subst hempty
        rw [List.filter_cons_of_neg (by simp)] at hwalk
        have hrest := ih hwalk
        have hdirectory : tree.get? current = some .directory := by
          cases rest with
          | nil =>
              obtain ⟨rfl, hget⟩ := walk_nil_ok hrest
              exact hget
          | cons next rest => exact (walk_cons_ok hrest).1
        rw [walk_cons hdirectory]
        exact hrest
      · rw [List.filter_cons_of_pos (by simpa using hempty)] at hwalk
        obtain ⟨hdirectory, next, henter, hrest⟩ := walk_cons_ok hwalk
        rw [walk_cons hdirectory, henter]
        exact ih hrest

theorem take_of_walk {current parts : List String} {node : Node}
    (habove : ∀ count < current.length, tree.get? (current.take count) =
      some .directory)
    (hwalk : tree.walk current parts = .ok (names, node)) :
    ∀ count < names.length, tree.get? (names.take count) = some .directory := by
  induction parts generalizing current with
  | nil =>
      obtain ⟨rfl, -⟩ := walk_nil_ok hwalk
      exact habove
  | cons part rest ih =>
      obtain ⟨hdirectory, next, henter, hrest⟩ := walk_cons_ok hwalk
      refine ih ?_ hrest
      intro count hcount
      unfold enter at henter
      split at henter
      · cases henter
        exact habove count hcount
      · split at henter
        · cases henter
          rw [List.length_dropLast] at hcount
          rw [List.dropLast_eq_take, List.take_take,
            Nat.min_eq_left (Nat.le_of_lt hcount)]
          exact habove count (by omega)
        · split at henter
          · cases henter
          · cases henter
            rw [List.length_append, List.length_singleton] at hcount
            rw [List.take_append_of_le_length (by omega)]
            rcases Nat.lt_or_eq_of_le (Nat.le_of_lt_succ hcount) with hshort | rfl
            · exact habove count hshort
            · rw [List.take_length]
              exact hdirectory

private theorem get?_enter_of_missing {found : List String} {last : String}
    {parts : List String} (hwalk : tree.walk [] parts = .ok (found, .directory))
    (hmissing : ∀ ended, tree.walk [] (parts ++ [last]) ≠ .ok ended)
    (hshort : ¬ nameTooLong last = true) :
    tree.get? (found ++ [last]) = none := by
  have hfound := get?_of_walk hwalk
  rw [walk_append hwalk, walk_cons hfound, enter] at hmissing
  split at hmissing
  · exact absurd (show tree.walk found [] =
      .ok (found, .directory) by rw [walk, hfound])
      (hmissing _)
  · split at hmissing
    · have habove : tree.get? found.dropLast = some .directory := by
        cases hroot : found.length with
        | zero =>
            rw [List.length_eq_zero_iff.mp hroot]
            rfl
        | succ count =>
            rw [List.dropLast_eq_take, hroot]
            refine take_of_walk (fun count hcount => ?_) hwalk _ (by omega)
            exact absurd hcount (Nat.not_lt_zero count)
      exact absurd (show tree.walk found.dropLast [] =
        .ok (found.dropLast, .directory) by
        rw [walk, habove]) (hmissing _)
    · cases hget : tree.get? (found ++ [last]) with
      | none => rfl
      | some node =>
          exact absurd (show tree.walk (found ++ [last]) [] =
            .ok (found ++ [last], node) by
            rw [walk, hget]) (hmissing _)

/-- A directory is made only where nothing is. -/
theorem grows_makeDirectory {path last : String} {above : List String}
    (hzero : hasZero path = false) (hsplit : Text.split '/' path = above ++ [last])
    (hlast : last ≠ "") (hmade : tree.makeDirectory path = .ok other) :
    tree.Grows other := by
  have hparts : (Text.split '/' path).filter (· ≠ "") =
      above.filter (· ≠ "") ++ [last] := by
    rw [hsplit, List.filter_append, List.filter_cons_of_pos (by simpa using hlast)]
    rfl
  have hsome : path ≠ "" := by
    rintro rfl
    have hends := congrArg List.getLast? hsplit
    rw [List.getLast?_concat] at hends
    exact hlast (Option.some.inj hends).symm
  unfold makeDirectory at hmade
  simp only [hparts, List.getLast?_concat, List.dropLast_concat] at hmade
  split at hmade
  · cases hmade
  · next hmissing =>
      split at hmade
      · cases hmade
      · cases hmade
      · next found hwalk =>
          split at hmade
          · cases hmade
          · next hshort =>
              cases hmade
              refine grows_set (get?_enter_of_missing (walk_filter hwalk) ?_ hshort)
                _
              intro ended hended
              apply hmissing
              rw [contains, hzero, locate, if_neg hsome, hsplit, hended]
              rfl

structure Step (part : String) : Prop where
  nonempty : part ≠ ""
  slashless : '/' ∉ part.toList
  zeroless : '\x00' ∉ part.toList

private theorem step_plainRoute {path part : String} (hzero : hasZero path = false)
    (hpart : part ∈ (plainRoute path).parts) : Step part := by
  obtain ⟨hsplit, hkept⟩ := List.mem_filter.mp hpart
  simp only [Bool.and_eq_true, decide_eq_true_eq] at hkept
  refine ⟨hkept.1, Path.slash_notMem_split hsplit, fun hmem => ?_⟩
  obtain ⟨piece, hpiece, rfl⟩ := List.mem_map.mp hsplit
  rw [String.toList_ofList] at hmem
  have hpath : '\x00' ∈ path.toList :=
    (Text.mem_splitChars (by decide : '\x00' ≠ '/')).mp ⟨piece, hpiece, hmem⟩
  rw [hasZero, List.contains_eq_mem, decide_eq_false_iff_not] at hzero
  exact hzero hpath

variable {lead : Path.Lead} {part : String} {above : List String}

private theorem hasZero_route (hparts : ∀ part ∈ above, Step part) :
    hasZero (lead.text ++ Text.join "/" above) = false := by
  rw [hasZero, List.contains_eq_mem, decide_eq_false_iff_not, String.toList_append,
    List.mem_append]
  rintro (hlead | hmem)
  · revert hlead
    cases lead <;> decide
  · rw [Text.join, String.toList_intercalate] at hmem
    obtain ⟨piece, hpiece, hmem⟩ :=
      (mem_intercalate (by decide : '\x00' ≠ '/') _).mp hmem
    obtain ⟨part, hpart, rfl⟩ := List.mem_map.mp hpiece
    exact (hparts part hpart).zeroless hmem

private theorem split_route (hpart : Step part) :
    ∃ front, Text.split '/' (lead.text ++ Text.join "/" (above ++ [part])) =
      front ++ [part] := by
  have hlast : Text.split '/' part = [part] := by
    rw [Text.split, Text.splitChars_of_notMem hpart.slashless]
    simp
  have hslash (text : String) : ∃ front, Text.split '/' (text ++ "/" ++ part) =
      front ++ [part] :=
    ⟨_, by rw [Text.split_append_separator rfl text part, hlast]⟩
  cases above with
  | nil =>
      rw [List.nil_append, Text.join, String.intercalate_singleton]
      cases lead with
      | relative =>
          exact ⟨[], by rw [Path.Lead.text, String.empty_append, hlast]; rfl⟩
      | root => exact hslash ""
      | doubleRoot => exact hslash "/"
  | cons first rest =>
      rw [Text.join, String.intercalate_append_of_ne_nil (List.cons_ne_nil _ _)
        (List.cons_ne_nil _ _), String.intercalate_singleton, ← String.append_assoc,
        ← String.append_assoc]
      exact hslash _

private theorem grows_ensureDirectory {path : String}
    (hmake : ∀ made, tree.makeDirectory path = .ok made → tree.Grows made)
    (hmade : tree.ensureDirectory path = .ok other) : tree.Grows other := by
  unfold ensureDirectory at hmade
  split at hmade
  · next hmaking =>
      cases hmade
      exact hmake _ hmaking
  · cases hmade
  · split at hmade
    · cases hmade
      exact .refl tree
    · cases hmade

theorem makeDirectory_lead (made : FileTree) :
    tree.makeDirectory (if lead.text = "" then "." else lead.text) ≠ .ok made := by
  have hthere : tree.contains (if lead.text = "" then "." else lead.text) =
      true := by
    cases lead <;> rfl
  intro hmade
  rw [makeDirectory, if_pos hthere] at hmade
  cases hmade

private theorem grows_ensureRoute (hparts : ∀ part ∈ above, Step part) :
    tree.Grows (tree.ensureRoute lead.text above).1 := by
  induction above with
  | nil =>
      rw [ensureRoute]
      split
      · next made hmade =>
          exact grows_ensureDirectory (fun made hmaking =>
            absurd hmaking (makeDirectory_lead made)) hmade
      · exact .refl tree
  | cons part rest ih =>
      obtain ⟨hpart, hrest⟩ := List.forall_mem_cons.mp hparts
      have hroute : ∀ other ∈ (part :: rest).reverse, Step other :=
        fun other hother =>
        hparts other (List.mem_reverse.mp hother)
      have hmake {tree : FileTree} (made : FileTree) (hmade : tree.makeDirectory
          (lead.text ++ Text.join "/" (part :: rest).reverse) = .ok made) :
          tree.Grows made := by
        have hzero := @hasZero_route lead (part :: rest).reverse hroute
        rw [List.reverse_cons] at hzero hmade
        obtain ⟨front, hsplit⟩ := @split_route lead part rest.reverse hpart
        exact grows_makeDirectory hzero hsplit hpart.nonempty hmade
      rw [ensureRoute]
      split
      · next made hmade => exact hmake made hmade
      · have habove := ih hrest
        rcases hensured : tree.ensureRoute lead.text rest with ⟨made, fault | _⟩
        · rw [hensured] at habove
          exact habove
        · rw [hensured] at habove
          simp only
          split
          · next complete hcomplete =>
              exact habove.trans (grows_ensureDirectory hmake hcomplete)
          · exact habove
      · exact .refl tree

private theorem grows_ensureParent {path : String} (hzero : hasZero path = false) :
    tree.Grows (tree.ensureParent path).1 := by
  refine grows_ensureRoute fun part hpart => step_plainRoute hzero ?_
  exact List.mem_reverse.mp (List.mem_of_mem_tail hpart)

end FileTree

namespace Machine

/-- No file that is open for writing is a directory. -/
structure Solid (machine : Machine) : Prop where
  outputs : ∀ output ∈ machine.outputs, machine.files.get? output.names ≠
    some .directory
  journal : ∀ names, machine.journalFile = some names →
    machine.files.get? names ≠ some .directory

/-- From the first machine, if it is solid, the second has come without a change to
the directories. -/
def Grounded (before after : Machine) : Prop :=
  before.Solid → before.files.SameDirectories after.files ∧ after.Solid

variable {machine after third : Machine}

theorem Grounded.refl (machine : Machine) : machine.Grounded machine :=
  fun hsolid => ⟨.refl _, hsolid⟩

theorem Grounded.trans (hfirst : machine.Grounded after)
    (hsecond : after.Grounded third) :
    machine.Grounded third := by
  intro hsolid
  obtain ⟨hsame, hafter⟩ := hfirst hsolid
  obtain ⟨hsame', hthird⟩ := hsecond hafter
  exact ⟨hsame.trans hsame', hthird⟩

/-- Only the directories need to be looked at when no other file is open for
writing. -/
theorem grounded_of_same
    (htree : machine.Solid → machine.files.SameDirectories after.files)
    (houtputs : after.outputs.map OutputFile.names = machine.outputs.map
      OutputFile.names) (hjournal : after.journalFile = machine.journalFile) :
        machine.Grounded after := by
  intro hsolid
  have hsame := htree hsolid
  refine ⟨hsame, ⟨?_, ?_⟩⟩
  · intro output houtput
    have hnames : output.names ∈ machine.outputs.map OutputFile.names :=
      houtputs ▸ List.mem_map_of_mem houtput
    obtain ⟨earlier, hearlier, hsamenames⟩ := List.mem_map.mp hnames
    rw [← hsamenames]
    exact mt (hsame _).mpr (hsolid.outputs earlier hearlier)
  · intro names hnames
    exact mt (hsame _).mpr (hsolid.journal names (hjournal ▸ hnames))

private theorem grounded_publish {journal : Journal}
    (hjournal : machine.journal = some journal) (entry : Journal.Entry) :
    machine.Grounded (machine.publish journal entry) := by
  have houtputs : (machine.publish journal entry).outputs = machine.outputs := by
    unfold publish
    cases journal.console <;> cases journal.file <;> rfl
  refine grounded_of_same (fun hsolid => ?_) (congrArg _ houtputs)
    (quiet_publish hjournal entry).journalFile
  have hfile : machine.journalFile = journal.file := by
    rw [journalFile, hjournal]; rfl
  unfold publish
  cases hnames : journal.file with
  | none => cases journal.console <;> exact .refl _
  | some names =>
      have hset := FileTree.sameDirectories_set
        (hsolid.journal names (hfile.trans hnames))
      cases journal.console <;> exact hset _

theorem grounded_note (machine : Machine) (note : Journal.Note) :
    machine.Grounded (machine.note note) := by
  unfold Machine.note
  split
  · exact .refl machine
  · next journal hjournal =>
      split
      · exact grounded_publish hjournal _
      · exact .refl machine

theorem grounded_noteAll (machine : Machine) (notes : List Journal.Note) :
    machine.Grounded (machine.noteAll notes) := by
  induction notes generalizing machine with
  | nil => exact .refl machine
  | cons note rest ih => exact (grounded_note machine note).trans (ih _)

theorem grounded_clearJournal (machine : Machine) :
    machine.Grounded machine.clearJournal :=
  grounded_of_same (fun _ => .refl machine.files) rfl
    (quiet_clearJournal machine).journalFile

private theorem names_closeOutput (machine : Machine) (handle : Nat) :
    (machine.closeOutput handle).outputs.map OutputFile.names =
      machine.outputs.map OutputFile.names := by
  have hnames : OutputFile.names ∘ OutputFile.asClosed = OutputFile.names := rfl
  rw [← hnames, ← List.map_map, outputs_closeOutput, List.map_map]

theorem grounded_closeOutput (machine : Machine) (handle : Nat) :
    machine.Grounded (machine.closeOutput handle) := by
  apply grounded_of_same
  · intro hsolid
    rw [Execution.files_closeOutput]
    exact .refl machine.files
  · exact names_closeOutput machine handle
  · exact (quiet_closeOutput machine handle).journalFile

theorem grounded_of_wrote {writer writer' : Writer}
    (hwrote : Wrote writer machine writer' after) :
    machine.Grounded after := by
  have hlasting : OutputFile.names ∘ OutputFile.lasting = OutputFile.names := rfl
  apply grounded_of_same
  · intro hsolid
    rcases hwrote.files with hsame | ⟨handle, output, content, -, houtput, hset⟩
    · rw [hsame]
      exact .refl machine.files
    · rw [hset]
      exact FileTree.sameDirectories_set
        (hsolid.outputs output (List.mem_of_getElem? houtput)) content
  · rw [← hlasting, ← List.map_map, hwrote.outputs, List.map_map]
  · rw [journalFile, journalFile, hwrote.journal]

theorem grounded_openOutput {path : String} {append : Bool} {handle : Nat}
    (hopen : machine.openOutput path append = .ok (after, handle)) :
    machine.Grounded after := by
  unfold openOutput at hopen
  split at hopen
  · cases hopen
  · split at hopen
    · cases hopen
    · next files names hfiles =>
        cases hopen
        obtain ⟨hsame, hfile⟩ := FileTree.sameDirectories_openForWriting hfiles
        intro hsolid
        refine ⟨hsame, ⟨?_, ?_⟩⟩
        · intro output houtput
          rcases List.mem_append.mp houtput with hearlier | hnew
          · exact mt (hsame _).mpr (hsolid.outputs output hearlier)
          · rw [List.mem_singleton.mp hnew]
            exact hfile
        · exact fun other hother => mt (hsame _).mpr (hsolid.journal other hother)

theorem grounded_of_sessionWrote {σ : Type} {session session' : Session σ}
    (hwrote : session.Wrote session') :
    session.machine.Grounded session'.machine := by
  have hlasting : OutputFile.names ∘ OutputFile.lasting = OutputFile.names := rfl
  have houtputs : session'.machine.outputs.map OutputFile.lasting =
      session.machine.outputs.map OutputFile.lasting :=
        congrArg Session.Frame.outputs hwrote.frame
  apply grounded_of_same
  · intro hsolid names
    rcases hwrote.nodes names with hsame | ⟨hwrites, content, hcontent⟩
    · rw [hsame]
    · obtain ⟨handle, output, -, houtput, rfl⟩ := hwrites
      obtain ⟨file, hfile, rfl⟩ := List.mem_map.mp (List.mem_of_getElem? houtput)
      rw [hcontent]
      exact ⟨fun h => absurd h (hsolid.outputs file hfile), nofun⟩
  · rw [← hlasting, ← List.map_map, houtputs, List.map_map]
  · rw [journalFile, journalFile, hwrote.journal]

/-- Where a terminal can start: no file that is open for writing is a directory, and
before the journal runs it is still there. -/
structure Startable (machine : Machine) : Prop extends machine.Solid where
  present : machine.journal = none →
    ∀ output ∈ machine.outputs, machine.files.get? output.names ≠ none

theorem startable_new (files : FileTree) (userHome : String) (clock : Int)
    (isTerminal : Bool) : (Machine.new files userHome clock isTerminal).Startable :=
  ⟨⟨nofun, nofun⟩, fun _ _ hopen => absurd hopen List.not_mem_nil⟩

theorem Startable.openOutput (hstartable : machine.Startable) {path : String}
    {append : Bool} {handle : Nat}
    (hopen : machine.openOutput path append = .ok (after, handle)) :
    after.Startable := by
  refine ⟨(grounded_openOutput hopen hstartable.toSolid).2, ?_⟩
  unfold Machine.openOutput at hopen
  split at hopen
  · cases hopen
  · split at hopen
    · cases hopen
    · next files names hfiles =>
        cases hopen
        intro hnone output houtput
        obtain ⟨hkept, hthere⟩ := FileTree.present_openForWriting hfiles
        rcases List.mem_append.mp houtput with hearlier | hnew
        · exact hkept _ (hstartable.present hnone output hearlier)
        · rw [List.mem_singleton.mp hnew]
          exact hthere

private theorem openJournalFile_ok {path : String} {names : List String}
    (hopen : machine.openJournalFile path = (after, .ok names)) :
    after.outputs = machine.outputs ∧ after.files.get? names ≠ some .directory ∧
      ∀ found, machine.files.get? found ≠ none →
        machine.files.get? found ≠ some .directory →
        after.files.get? found ≠ some .directory := by
  unfold openJournalFile at hopen
  split at hopen
  · cases hopen
  · next hzero =>
      have hgrows : machine.files.Grows (machine.files.ensureParent path).1 :=
        FileTree.grows_ensureParent (by simpa using hzero)
      split at hopen
      · cases hopen
      · next files hensured =>
          rw [hensured] at hgrows
          split at hopen
          · cases hopen
          · next hfiles =>
              cases hopen
              obtain ⟨hsame, hfile⟩ := FileTree.sameDirectories_openForWriting hfiles
              refine ⟨rfl, hfile, fun found hthere hfound => ?_⟩
              rw [← hgrows found hthere] at hfound
              exact mt (hsame found).mpr hfound

private theorem solid_newJournal {settings : JournalSettings} {capacity : Nat}
    {file : Option (List String)} (houtputs : ∀ output ∈ machine.outputs,
      machine.files.get? output.names ≠ some .directory)
    (hfile : ∀ names, file = some names →
      machine.files.get? names ≠ some .directory) :
    (machine.newJournal settings capacity file).Solid where
  outputs := houtputs
  journal := hfile

/-- The directories of the journal's file are made beside the files that are open. -/
theorem Startable.startJournal (hstartable : machine.Startable)
    {settings : JournalSettings}
    (hstart : machine.startJournal settings = (after, .ok ())) : after.Solid := by
  unfold Machine.startJournal at hstart
  split at hstart
  · cases hstart
    exact hstartable.toSolid
  · next hnone =>
      have hpresent := hstartable.present (by simpa using hnone)
      split at hstart
      · cases hstart
      · cases hstart
        exact solid_newJournal hstartable.outputs nofun
      · split at hstart
        · cases hstart
        · next opened names hopen =>
            cases hstart
            obtain ⟨hsame, hfile, hkept⟩ := openJournalFile_ok hopen
            refine solid_newJournal (fun output houtput => ?_) ?_
            · rw [hsame] at houtput
              exact hkept _ (hpresent output houtput)
                (hstartable.outputs output houtput)
            · rintro _ ⟨⟩
              exact hfile

end Machine

end PipeShell
