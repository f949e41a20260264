import PipeShell.Proofs.HistoryIndependence
import PipeShell.Proofs.OuterSpaces

namespace PipeShell

namespace Text

private theorem isBlank_of_isLineBreak {c : Char} (hbreak : isLineBreak c = true) :
    isBlank c = true := by
  simp only [isLineBreak, isBlank, Bool.or_eq_true, Bool.and_eq_true,
    decide_eq_true_eq, beq_iff_eq] at hbreak ⊢
  omega

private theorem linesFrom_cons {c : Char} (hplain : isLineBreak c = false)
    (line rest : List Char) :
    linesFrom line (c :: rest) = linesFrom (c :: line) rest := by
  rw [linesFrom]
  · rw [if_neg (by simp [hplain])]
  · rintro rest rfl
    cases hplain

private theorem linesFrom_append {chars : List Char}
    (hplain : ∀ c ∈ chars, isLineBreak c = false) (line rest : List Char) :
    linesFrom line (chars ++ rest) = linesFrom (chars.reverse ++ line) rest := by
  induction chars generalizing line with
  | nil => rfl
  | cons c chars ih =>
      obtain ⟨hc, hchars⟩ := List.forall_mem_cons.mp hplain
      rw [List.cons_append, linesFrom_cons hc, ih hchars, List.reverse_cons,
        List.append_assoc]
      rfl

private theorem not_isLineBreak_of_spacesOnly {text : String}
    (hspaces : SpacesOnly text) :
    ∀ c ∈ text.toList, isLineBreak c = false := by
  intro c hc
  cases hbreak : isLineBreak c with
  | false => rfl
  | true =>
      rw [hspaces c hc (isBlank_of_isLineBreak hbreak)] at hbreak
      cases hbreak

private theorem linesFrom_newline (line rest : List Char) :
    linesFrom line ('\n' :: rest) = line.reverse :: linesFrom [] rest := by
  rw [linesFrom]
  · rfl
  · nofun

theorem lines_join {texts : List String}
    (hspaces : ∀ text ∈ texts, SpacesOnly text) :
    lines (join "\n" texts) = texts ∨ lines (join "\n" texts) ++ [""] = texts := by
  induction texts with
  | nil => exact .inl rfl
  | cons text rest ih =>
      obtain ⟨htext, hrest⟩ := List.forall_mem_cons.mp hspaces
      have hplain := not_isLineBreak_of_spacesOnly htext
      by_cases hlast : rest = []
      · subst hlast
        have hread := linesFrom_append hplain [] []
        rw [List.append_nil, List.append_nil, linesFrom] at hread
        rw [lines, join, String.intercalate_singleton, hread]
        by_cases hempty : text = ""
        · subst hempty
          exact .inr rfl
        · have hchars : text.toList ≠ [] :=
            fun h => hempty (String.toList_eq_nil_iff.mp h)
          refine .inl ?_
          simp [hchars]
      · have hread := linesFrom_append hplain [] ('\n' :: (join "\n" rest).toList)
        rw [List.append_nil, linesFrom_newline, List.reverse_reverse] at hread
        have hjoin : lines (join "\n" (text :: rest)) =
            text :: lines (join "\n" rest) := by
          rw [lines, join, String.intercalate_cons_of_ne_nil hlast,
            String.toList_append, String.toList_append, List.append_assoc]
          change (linesFrom [] (text.toList ++ '\n' :: (join "\n" rest).toList)).map
            _ = _
          rw [hread, List.map_cons, String.ofList_toList, lines]
        rw [hjoin]
        rcases ih hrest with hsame | hsame
        · exact .inl (congrArg (text :: ·) hsame)
        · exact .inr (congrArg (text :: ·) hsame)

/-- The line is blank, or a comment: its first character that is no space is a
`#`. -/
def skipped (line : String) : Bool :=
  (line.toList.find? (· ≠ ' ')).all (· = '#')

theorem skipped_strip {line : String} (hspaces : SpacesOnly line) :
    skipped (strip line) = skipped line := by
  obtain ⟨before, after, hline⟩ := exists_spaces_strip hspaces
  have hnone (count : Nat) : (List.replicate count ' ').find? (· ≠ ' ') = none := by
    simp
  unfold skipped
  rw [hline, List.find?_append, List.find?_append, hnone, hnone, Option.none_or,
    Option.or_none]

theorem allBlank_of_not_skipped {line : String} (hspaces : SpacesOnly line)
    (hrun : skipped line = false) : allBlank line = false := by
  unfold skipped at hrun
  cases hfound : line.toList.find? (· ≠ ' ') with
  | none =>
      rw [hfound] at hrun
      cases hrun
  | some c =>
      have hc : c ≠ ' ' := by simpa using List.find?_some hfound
      have hmem := List.mem_of_find?_eq_some hfound
      apply Bool.eq_false_iff.mpr
      intro hblank
      exact hc (hspaces c hmem (List.all_eq_true.mp hblank c hmem))

private theorem head_stripChars {chars rest : List Char} {c : Char}
    (hchars : stripChars chars = c :: rest) :
    isBlank c = false := by
  have hkept : stripChars chars <+: chars.dropWhile isBlank := by
    rw [stripChars, ← List.reverse_suffix, List.reverse_reverse]
    exact List.dropWhile_suffix _
  obtain ⟨more, hmore⟩ := hkept
  rw [hchars, List.cons_append] at hmore
  have hhead := List.head?_dropWhile_not isBlank chars
  rw [← hmore] at hhead
  simpa using hhead

theorem skipped_stripped (line : String) :
    skipped (strip line) = (strip line = "" || startsWith (strip line) "#") := by
  have hempty : strip line = "" ↔ stripChars line.toList = [] := by
    rw [← toList_strip, String.toList_eq_nil_iff]
  unfold skipped startsWith
  rw [toList_strip]
  cases hchars : stripChars line.toList with
  | nil =>
      rw [decide_eq_true (hempty.mpr hchars)]
      rfl
  | cons c rest =>
      have hc : c ≠ ' ' := by
        rintro rfl
        cases head_stripChars hchars
      have hsome : strip line ≠ "" := fun h => by
        rw [hempty.mp h] at hchars
        cases hchars
      rw [Bool.eq_iff_iff]
      simp [hsome, hc, List.isPrefixOf, @eq_comm _ '#' c]

end Text

namespace Terminal

open Act
open Channel (Source Writer)

variable {terminal left right : Terminal} {cancelled : Bool} {line : String}

/-- Types lines one after the other, except those that are blank or comments, up to
the first that does not succeed. -/
def typeLines (terminal : Terminal) (cancelled : Bool) :
    List String → Except Fault ExitCode × Terminal
  | [] => (.ok .success, terminal)
  | line :: rest =>
      if Text.skipped line then terminal.typeLines cancelled rest
      else
        match terminal.runLine .empty cancelled line with
        | (.ok .success, next) => next.typeLines cancelled rest
        | other => other

/-- The lines that are in fact typed, each with the terminal that it is typed at. -/
def reached (terminal : Terminal) (cancelled : Bool) :
    List String → List (Terminal × String)
  | [] => []
  | line :: rest =>
      if Text.skipped line then terminal.reached cancelled rest
      else
        (terminal, line) ::
          match terminal.runLine .empty cancelled line with
          | (.ok .success, next) => next.reached cancelled rest
          | _ => []

section Steps

variable (rest : List String)

private theorem typeLines_skipped (hskipped : Text.skipped line = true) :
    terminal.typeLines cancelled
      (line :: rest) = terminal.typeLines cancelled rest := by
  rw [typeLines, if_pos hskipped]

private theorem typeLines_success (hrun : Text.skipped line = false)
    {next : Terminal} (hline : terminal.runLine .empty cancelled line =
      (.ok .success, next)) :
    terminal.typeLines cancelled (line :: rest) = next.typeLines cancelled rest := by
  rw [typeLines, if_neg (by simp [hrun]), hline]

private theorem typeLines_stopped (hrun : Text.skipped line = false)
    {result : Except Fault ExitCode} {next : Terminal}
    (hline : terminal.runLine .empty cancelled line = (result, next))
    (hstopped : result ≠ .ok .success) :
    terminal.typeLines cancelled (line :: rest) = (result, next) := by
  rw [typeLines, if_neg (by simp [hrun]), hline]
  split
  · next heq =>
      cases heq
      exact absurd rfl hstopped
  · rfl

private theorem reached_skipped (hskipped : Text.skipped line = true) :
    terminal.reached cancelled (line :: rest) = terminal.reached cancelled rest := by
  rw [reached, if_pos hskipped]

private theorem reached_success (hrun : Text.skipped line = false) {next : Terminal}
    (hline : terminal.runLine .empty cancelled line = (.ok .success, next)) :
    terminal.reached cancelled
      (line :: rest) = (terminal, line) :: next.reached cancelled rest := by
  rw [reached, if_neg (by simp [hrun]), hline]

private theorem reached_stopped (hrun : Text.skipped line = false)
    {result : Except Fault ExitCode} {next : Terminal}
    (hline : terminal.runLine .empty cancelled line = (result, next))
    (hstopped : result ≠ .ok .success) :
    terminal.reached cancelled (line :: rest) = [(terminal, line)] := by
  rw [reached, if_neg (by simp [hrun]), hline]
  split
  · next heq =>
      cases heq
      exact absurd rfl hstopped
  · rfl

private theorem reached_cons (hrun : Text.skipped line = false) :
    ∃ later, terminal.reached cancelled
      (line :: rest) = (terminal, line) :: later := by
  rw [reached, if_neg (by simp [hrun])]
  exact ⟨_, rfl⟩

end Steps

private theorem typeLines_append_empty (lines : List String) :
    terminal.typeLines cancelled (lines ++ [""]) = terminal.typeLines cancelled
      lines := by
  induction lines generalizing terminal with
  | nil => rfl
  | cons line rest ih =>
      rw [List.cons_append, typeLines, typeLines, ih]
      split
      · rfl
      · split
        · exact ih
        · rfl

private theorem addHistory_streams (terminal : Terminal) (out err : Writer)
    (text : String) : { terminal with out, err }.addHistory text =
      ((terminal.addHistory text).1,
        { (terminal.addHistory text).2 with out, err }) := by
  unfold addHistory
  dsimp only
  split
  · rfl
  · cases (terminal.memory.addLine (terminal.config.get .ignoreDuplicates).truthy
      text).trim
      (terminal.config.get .maxHistory) <;> rfl

/-- What a terminal holds for its output and its errors does not matter to a line
that is given others. -/
theorem settle_runOn (terminal : Terminal) (streams : Streams) (out err : Writer)
    (text : String) :
    ({ terminal with out, err }.runOn streams text).settle =
    (terminal.runOn streams text).settle := by
  unfold runOn
  rw [addHistory_streams]
  split
  · rfl
  · rcases terminal.addHistory text with ⟨fault | added, recorded⟩
    · rfl
    · rfl

/-- A script is its lines, typed without the spaces around them. -/
theorem settle_runLinesOn (terminal : Terminal) (cancelled : Bool) (out err : Writer)
    (lines : List String) :
    (terminal.runLinesOn ⟨.empty, out, err, cancelled⟩ lines).settle =
      { terminal with out, err }.typeLines cancelled (lines.map Text.strip) := by
  induction lines generalizing terminal out err with
  | nil => rfl
  | cons line rest ih =>
      have hskipped := Text.skipped_stripped line
      have hline :
          { terminal with out, err }.runLine .empty cancelled (Text.strip line) =
          (terminal.runOn ⟨.empty, out, err, cancelled⟩ (Text.strip line)).settle :=
        settle_runOn terminal _ out err _
      rw [runLinesOn, List.map_cons, typeLines, hskipped, hline]
      dsimp only
      split
      · exact ih terminal out err
      · rcases terminal.runOn ⟨.empty, out, err, cancelled⟩ (Text.strip line) with
          ⟨fault | code, after, out', err'⟩
        · rfl
        · cases code with
          | success => exact ih after out' err'
          | _ => rfl

private theorem runScript_join {lines : List String}
    (hspaces : ∀ line ∈ lines, Text.SpacesOnly line) (terminal : Terminal)
    (cancelled : Bool) : terminal.runScript cancelled (Text.join "\n" lines) =
      terminal.typeLines cancelled (lines.map Text.strip) := by
  have hscript := settle_runLinesOn terminal cancelled terminal.out terminal.err
    (Text.lines (Text.join "\n" lines))
  rw [runScript, ownStreams, hscript]
  rcases Text.lines_join hspaces with hlines | hlines
  · rw [hlines]
  · nth_rewrite 2 [← hlines]
    rw [List.map_append]
    exact (typeLines_append_empty _).symm

/-- The file that the errors of a terminal are written to. -/
def errorFile (terminal : Terminal) : Option (List String) :=
  (terminal.err.handle?.bind (terminal.machine.outputs[·]?)).map (·.names)

/-- What can be seen of a terminal apart from its history, its errors and the records
of its journal. -/
structure Shown where
  out : Writer
  console : Option String
  whereabouts : Whereabouts
  /-- The files and directories, except those that errors and records are written
  to. -/
  node : List String → Option Node

def consoleBesides (err : Writer) (machine : Machine) : Option String :=
  match err with
  | .console => none
  | _ => some machine.console.out

def shown (terminal : Terminal) : Shown where
  out := terminal.out
  console := consoleBesides terminal.err terminal.machine
  whereabouts := terminal.memory.whereabouts
  node names :=
    if terminal.machine.journalFile = some names ∨
      terminal.errorFile = some names then none
    else terminal.machine.files.get? names

theorem SameButHistory.config_eq (hsame : SameButHistory left right) :
    left.config = right.config := by
  obtain ⟨memory, rfl, -⟩ := hsame
  rfl

theorem SameButHistory.shown_eq (hsame : SameButHistory left right) :
    left.shown = right.shown := by
  obtain ⟨memory, rfl, hwhereabouts⟩ := hsame
  unfold shown
  rw [← hwhereabouts]
  rfl

theorem shown_congr {err : Writer} {machine : Machine}
    (hconsole : consoleBesides err machine = consoleBesides terminal.err
      terminal.machine)
    (hjournal : machine.journalFile = terminal.machine.journalFile)
    (herror : { terminal with machine, err }.errorFile = terminal.errorFile)
    (hfiles : ∀ names, terminal.machine.journalFile ≠ some names →
      terminal.errorFile ≠ some names →
      machine.files.get? names = terminal.machine.files.get? names) :
    { terminal with machine, err }.shown = terminal.shown := by
  unfold shown
  rw [hconsole, hjournal, herror]
  congr 1
  funext names
  split
  · rfl
  · next hother =>
      obtain ⟨hnot, hnot'⟩ := not_or.mp hother
      exact hfiles names hnot hnot'

private theorem shown_noteAll (terminal : Terminal) (notes : List Journal.Note) :
    { terminal with machine := terminal.machine.noteAll notes }.shown =
      terminal.shown := by
  have hquiet := Machine.quiet_noteAll terminal.machine notes
  refine shown_congr ?_ hquiet.journalFile ?_ fun names hnot _ =>
    hquiet.files names hnot
  · unfold consoleBesides
    rw [hquiet.shown]
  · simp only [errorFile, Machine.outputs_noteAll]

private theorem console_writeOutput {machine after : Machine} {handle : Nat}
    {text : String} (hwritten : machine.writeOutput handle text = .ok after) :
    after.console = machine.console := by
  unfold Machine.writeOutput at hwritten
  split at hwritten
  · cases hwritten
    rfl
  · split at hwritten
    · cases hwritten
    · dsimp only at hwritten
      split at hwritten <;> cases hwritten <;> rfl

private theorem consoleBesides_writeLine {writer err : Writer}
    {machine after : Machine}
    (hwritten : writer.writeLine machine line = .ok (err, after)) :
    consoleBesides err after = consoleBesides writer machine := by
  cases writer with
  | file handle =>
      obtain ⟨written, hfile, hafter⟩ := exists_of_map_ok hwritten
      cases hafter
      exact congrArg (fun console => some console.out) (console_writeOutput hfile)
  | _ =>
      cases hwritten
      rfl

private theorem shown_writeLine {err : Writer} {machine : Machine}
    (hwritten : terminal.err.writeLine terminal.machine line = .ok (err, machine)) :
    { terminal with machine, err }.shown = terminal.shown := by
  have hwrote := Writer.wrote_of_writeLine hwritten
  have hnames (handle : Nat) : (machine.outputs[handle]?).map OutputFile.names =
      (terminal.machine.outputs[handle]?).map OutputFile.names := by
    have hlasting := congrArg (fun outputs =>
      (outputs[handle]?).map OutputFile.names) hwrote.outputs
    simp only [List.getElem?_map, Option.map_map] at hlasting
    exact hlasting
  refine shown_congr (consoleBesides_writeLine hwritten) ?_ ?_ ?_
  · rw [Machine.journalFile, hwrote.journal]
    rfl
  · simp only [errorFile, hwrote.handle]
    cases terminal.err.handle? with
    | none => rfl
    | some handle => exact hnames handle
  · intro names _ hother
    rcases hwrote.files with
      hsame | ⟨handle, output, content, hhandle, houtput, hset⟩
    · rw [hsame]
    · have hne : names ≠ output.names := by
        rintro rfl
        apply hother
        rw [errorFile, hhandle]
        exact congrArg (Option.map OutputFile.names) houtput
      rw [hset, FileTree.get?_set_of_ne hne]

/-- How a line ends that cannot be read: with a usage error, or with the fault of the
error stream. -/
def complaint (terminal : Terminal) : Except Fault ExitCode :=
  (terminal.err.writeLine terminal.machine "").map fun _ => .usageError

theorem complaint_ne_success (terminal : Terminal) :
    terminal.complaint ≠ .ok .success := by
  unfold complaint
  cases terminal.err.writeLine terminal.machine "" <;> nofun

theorem SameButHistory.complaint_eq (hsame : SameButHistory left right) :
    left.complaint = right.complaint := by
  obtain ⟨memory, rfl, -⟩ := hsame
  rfl

theorem refuses_noteAll {writer : Writer} {machine : Machine}
    {notes : List Journal.Note} {fault : Fault} :
    writer.Refuses (machine.noteAll notes) fault ↔ writer.Refuses machine fault := by
  unfold Writer.Refuses
  rw [Machine.outputs_noteAll]

/-- Whether an error line can be written depends neither on the line nor on the
journal. -/
theorem complaint_of_error {notes : List Journal.Note} {message : String}
    {fault : Fault} (hwritten : terminal.err.writeLine
      (terminal.machine.noteAll notes) message = .error fault) :
    terminal.complaint = .error fault := by
  have hrefuses := refuses_noteAll.mp (Writer.writeLine_error hwritten)
  rw [complaint, writeLine_of_refuses hrefuses]
  rfl

private theorem complaint_of_ok {notes : List Journal.Note} {message : String}
    {written : Writer × Machine}
    (hwritten : terminal.err.writeLine (terminal.machine.noteAll notes) message =
      .ok written) : terminal.complaint = .ok .usageError := by
  unfold complaint
  cases hline : terminal.err.writeLine terminal.machine "" with
  | ok _ => rfl
  | error fault =>
      have hrefuses : terminal.err.Refuses (terminal.machine.noteAll notes) fault :=
        refuses_noteAll.mpr (Writer.writeLine_error hline)
      rw [writeLine_of_refuses hrefuses] at hwritten
      cases hwritten

theorem runLine_malformed (hvalid : terminal.config.defect? = none) {text : String}
    (hblank : Text.allBlank text = false) {error : ParseError}
    (hparse : Pipeline.parse text = .error error) (input : Source)
    (cancelled : Bool) :
    (terminal.runLine input cancelled text).1 = terminal.complaint ∧
      (terminal.runLine input cancelled text).2.shown = terminal.shown := by
  obtain ⟨memory, hadded⟩ := addHistory_of_valid hvalid text
  have hsame : SameButHistory { terminal with memory } terminal :=
    ⟨memory, rfl, (addHistory_recorded hadded).2⟩
  rw [runLine, runOn_of_added hblank hadded, Execution.interpret,
    Execution.outcome_interpretWith_of_parse_error _ _ _ _ _ hparse]
  obtain ⟨notes, hended⟩ := @reported_of_parse
    ({ terminal with memory }.sessionFor (terminal.ownStreams input cancelled)) error
    (Execution.readingNotes text)
  generalize orElse reportFailure _ = ended at hended ⊢
  have hstream : ({ terminal with memory }.sessionFor
      (terminal.ownStreams input cancelled)).err = terminal.err := rfl
  have hmachine : ({ terminal with memory }.sessionFor
      (terminal.ownStreams input cancelled)).machine = terminal.machine := rfl
  rw [hstream, hmachine] at hended
  cases hwritten : terminal.err.writeLine (terminal.machine.noteAll notes)
      ("parse error: " ++ error.message) with
  | ok written =>
      rw [hwritten] at hended
      subst hended
      refine ⟨(complaint_of_ok hwritten).symm, ?_⟩
      have hnoted := shown_noteAll { terminal with memory } notes
      have hline := @shown_writeLine
        { terminal with memory, machine := terminal.machine.noteAll notes } _
          _ _ hwritten
      exact hline.trans (hnoted.trans hsame.shown_eq)
  | error fault =>
      rw [hwritten] at hended
      obtain ⟨more, rfl⟩ := hended
      refine ⟨(complaint_of_error hwritten).symm, ?_⟩
      exact (shown_noteAll { terminal with memory } (notes ++ more)).trans
        hsame.shown_eq

private theorem config_runLine (hvalid : terminal.config.defect? = none)
    {text : String} (hblank : Text.allBlank text = false) (input : Source)
    (cancelled : Bool) :
    (terminal.runLine input cancelled text).2.config = terminal.config := by
  obtain ⟨memory, hadded⟩ := addHistory_of_valid hvalid text
  rw [runLine, runOn_of_added hblank hadded]
  rfl

/-- A line that ends in no escaped space comes to the same without the spaces around
it. -/
theorem runLine_strip (hsame : SameButHistory left right)
    (hvalid : right.config.defect? = none) (hspaces : Text.SpacesOnly line)
    (hrun : Text.skipped line = false) (hplain : Token.endsEscaped line = false)
    (hahead : right.LooksAhead line) (cancelled : Bool) :
    (left.runLine .empty cancelled (Text.strip line)).1 =
    (right.runLine .empty cancelled line).1 ∧
      (left.runLine .empty cancelled (Text.strip line)).2.shown =
        (right.runLine .empty cancelled line).2.shown ∧
      ((right.runLine .empty cancelled line).1 = .ok .success →
        SameButHistory (left.runLine .empty cancelled (Text.strip line)).2
          (right.runLine .empty cancelled line).2) := by
  have hrun' : Text.skipped (Text.strip line) = false :=
    (Text.skipped_strip hspaces).trans hrun
  have hblank := Text.allBlank_of_not_skipped hspaces hrun
  have hblank' := Text.allBlank_of_not_skipped (Text.spacesOnly_strip hspaces) hrun'
  have hsome : Text.strip line ≠ "" := by
    intro hempty
    rw [hempty] at hrun'
    cases hrun'
  obtain ⟨error, error', hleft, hright⟩ | ⟨found, hleft, hright, hnotes⟩ :=
    Execution.parse_strip hspaces hsome hplain
  · obtain ⟨hresult, hshown⟩ :=
      runLine_malformed (hsame.config_eq ▸ hvalid) hblank' hleft .empty cancelled
    obtain ⟨hresult', hshown'⟩ :=
      runLine_malformed hvalid hblank hright .empty cancelled
    refine ⟨?_, ?_, ?_⟩
    · rw [hresult, hresult', hsame.complaint_eq]
    · rw [hshown, hshown', hsame.shown_eq]
    · intro hsuccess
      exact absurd (hresult'.symm.trans hsuccess) right.complaint_ne_success
  · obtain ⟨hresult, hafter⟩ := runLine_sameButHistory hsame hvalid hblank' hblank
      (hleft.trans hright.symm) hnotes hahead .empty cancelled
    exact ⟨hresult, hafter.shown_eq, fun _ => hafter⟩

theorem runLine_strip_escaped (hsame : SameButHistory left right)
    (hvalid : right.config.defect? = none) (hspaces : Text.SpacesOnly line)
    (hrun : Text.skipped line = false) (hescaped : Token.endsEscaped line = true)
    (cancelled : Bool) :
    (left.runLine .empty cancelled (Text.strip line)).1 = right.complaint ∧
      (left.runLine .empty cancelled (Text.strip line)).2.shown = right.shown := by
  obtain ⟨position, hparse⟩ := Execution.parse_of_endsEscaped hescaped
  have hrun' : Text.skipped (Text.strip line) = false :=
    (Text.skipped_strip hspaces).trans hrun
  have hblank := Text.allBlank_of_not_skipped (Text.spacesOnly_strip hspaces) hrun'
  obtain ⟨hresult, hshown⟩ :=
    runLine_malformed (hsame.config_eq ▸ hvalid) hblank hparse .empty cancelled
  exact ⟨hresult.trans hsame.complaint_eq, hshown.trans hsame.shown_eq⟩

/-- The first line that is typed and ends in an escaped space, with the terminal that
it is typed at. -/
def firstEscaped (terminal : Terminal) (cancelled : Bool) (lines : List String) :
    Option (Terminal × String) :=
  (terminal.reached cancelled lines).find? fun typed => Token.endsEscaped typed.2

/-- How a script ends. Its lines come to the same as when they are typed, up to the
first that ends in an escaped space; there it stops, and does no more than
complain. -/
def EndsAs (script typed : Except Fault ExitCode × Terminal) :
    Option (Terminal × String) → Prop
  | none =>
      script.1 = typed.1 ∧ script.2.shown = typed.2.shown ∧
        (script.1 = .ok .success → SameButHistory script.2 typed.2)
  | some (before, _) => script.1 = before.complaint ∧ script.2.shown = before.shown

private theorem typeLines_strip (hsame : SameButHistory left right)
    (hvalid : right.config.defect? = none) {lines : List String}
    (hspaces : ∀ line ∈ lines, Text.SpacesOnly line)
    (hahead : ∀ typed ∈ right.reached cancelled lines, typed.1.LooksAhead typed.2) :
    EndsAs (left.typeLines cancelled (lines.map Text.strip))
      (right.typeLines cancelled lines) (right.firstEscaped cancelled lines) := by
  -- The two terminals stay the same but for their histories as long as lines
  -- succeed.
  induction lines generalizing left right with
  | nil => exact ⟨rfl, hsame.shown_eq, fun _ => hsame⟩
  | cons line rest ih =>
      obtain ⟨hline, hrest⟩ := List.forall_mem_cons.mp hspaces
      have hstrip := Text.skipped_strip hline
      rw [List.map_cons, firstEscaped]
      cases hrun : Text.skipped line with
      | true =>
          rw [reached_skipped _ hrun] at hahead ⊢
          rw [typeLines_skipped _ hrun, typeLines_skipped _ (hstrip.trans hrun)]
          exact ih hsame hvalid hrest hahead
      | false =>
          rw [hrun] at hstrip
          obtain ⟨later, hreached⟩ := @reached_cons right cancelled line rest hrun
          have hhead := hahead (right, line) (hreached ▸ List.mem_cons_self)
          rcases hleft : left.runLine .empty cancelled (Text.strip line) with
            ⟨result, next⟩
          cases hescaped : Token.endsEscaped line with
          | true =>
              have hended := runLine_strip_escaped hsame hvalid hline hrun
                hescaped cancelled
              rw [hleft] at hended
              have hstopped : result ≠ .ok .success :=
                fun h => right.complaint_ne_success (hended.1.symm.trans h)
              rw [typeLines_stopped _ hstrip hleft hstopped, hreached]
              simp only [List.find?_cons, hescaped]
              exact hended
          | false =>
              have hconfig := config_runLine hvalid
                (Text.allBlank_of_not_skipped hline hrun) .empty
                cancelled
              obtain ⟨hresult, hshown, hafter⟩ :=
                runLine_strip hsame hvalid hline hrun hescaped hhead cancelled
              rcases hright : right.runLine .empty cancelled line with
                ⟨result', next'⟩
              rw [hright] at hresult hshown hafter hconfig
              rw [hleft] at hresult hshown hafter
              obtain rfl : result = result' := hresult
              by_cases hsuccess : result = .ok .success
              · subst hsuccess
                rw [reached_success _ hrun hright] at hahead ⊢
                rw [typeLines_success _ hrun hright,
                  typeLines_success _ hstrip hleft,
                  List.find?_cons_of_neg (by simp [hescaped])]
                exact ih (hafter rfl) (hconfig.symm ▸ hvalid) hrest
                  fun typed hmem => hahead typed (List.mem_cons_of_mem _ hmem)
              · rw [reached_stopped _ hrun hright hsuccess,
                  typeLines_stopped _ hrun hright hsuccess,
                  typeLines_stopped _ hstrip hleft hsuccess,
                  List.find?_cons_of_neg (by simp [hescaped])]
                exact ⟨rfl, hshown, fun h => absurd h hsuccess⟩

/-- A script does what its lines do when they are typed without the spaces around
them. Next to the lines as they are, it comes to the same exit code, output,
directories and files, unless a command looks back at the history, or a line ends in
a space that is escaped. -/
theorem runScript_types_lines (hvalid : terminal.config.defect? = none)
    (cancelled : Bool) {lines : List String}
    (hspaces : ∀ line ∈ lines, Text.SpacesOnly line) :
    terminal.runScript cancelled (Text.join "\n" lines) =
        terminal.typeLines cancelled (lines.map Text.strip) ∧
      ((∀ typed ∈ terminal.reached cancelled lines, typed.1.LooksAhead typed.2) →
        EndsAs (terminal.runScript cancelled (Text.join "\n" lines))
          (terminal.typeLines cancelled lines)
          (terminal.firstEscaped cancelled lines)) := by
  have hscript := runScript_join hspaces terminal cancelled
  refine ⟨hscript, fun hahead => ?_⟩
  rw [hscript]
  exact typeLines_strip ⟨terminal.memory, rfl, rfl⟩ hvalid hspaces hahead

/-! A comment, a line with spaces around it, and a line that ends in an escaped
space. -/

def spacedLines :
    List String := ["  # files", "  echo one  > /a/b ", "cd /a",
      " echo two\\ ", "pwd"]

theorem runScript_types_spacedLines :
    sampleTerminal.config.defect? = none ∧
      (∀ line ∈ spacedLines, Text.SpacesOnly line) ∧
      (∀ typed ∈ sampleTerminal.reached false spacedLines,
        typed.1.LooksAhead typed.2) ∧
      sampleTerminal.runScript false (Text.join "\n" spacedLines) =
        sampleTerminal.typeLines false (spacedLines.map Text.strip) ∧
      ∃ before, sampleTerminal.firstEscaped false spacedLines =
        some (before, " echo two\\ ") ∧
        before.memory.whereabouts = ⟨"/a", some "/home/user"⟩ ∧
        (sampleTerminal.runScript false (Text.join "\n" spacedLines)).1 =
          before.complaint ∧
        (sampleTerminal.runScript false (Text.join "\n" spacedLines)).2.shown =
          before.shown := by
  have hvalid : sampleTerminal.config.defect? = none := by decide +kernel
  have hspaces : ∀ line ∈ spacedLines, Text.SpacesOnly line := by decide +kernel
  have hahead : ((sampleTerminal.reached false spacedLines).all
      fun typed => decide (typed.1.LooksAhead typed.2)) = true := by
    decide +kernel
  have hescaped : ((sampleTerminal.firstEscaped false spacedLines).map
      fun typed => (typed.1.memory.whereabouts, typed.2)) =
        some (⟨"/a", some "/home/user"⟩, " echo two\\ ") := by
    decide +kernel
  obtain ⟨hscript, hends⟩ :=
    @runScript_types_lines sampleTerminal hvalid false spacedLines hspaces
  generalize sampleTerminal.runScript false (Text.join "\n" spacedLines) =
    script at hscript hends ⊢
  generalize sampleTerminal.firstEscaped false spacedLines =
    first at hescaped hends ⊢
  generalize sampleTerminal.reached false spacedLines = reached at hahead hends ⊢
  generalize sampleTerminal.typeLines false spacedLines = typed at hends
  simp only [List.all_eq_true, decide_eq_true_eq] at hahead
  obtain ⟨⟨before, line⟩, rfl, hsame⟩ := Option.map_eq_some_iff.mp hescaped
  obtain ⟨hwhereabouts, rfl⟩ := Prod.mk.inj hsame
  exact ⟨hvalid, hspaces, hahead, hscript, before, rfl, hwhereabouts, hends hahead⟩

/-- A line that succeeds when it is typed stops a script if it ends in an escaped
space, and the spaces around a line are missing from the history that a script
shows. -/
theorem script_differs_from_typing :
    ((sampleTerminal.runScript false "echo a\\ ").1.toOption = some .usageError ∧
        (sampleTerminal.runLine .empty false "echo a\\ ").1.toOption =
          some .success ∧
        (sampleTerminal.runLine .empty false "echo a\\ ").2.out.collected = "a \n") ∧
      (sampleTerminal.runScript false
        (Text.join "\n" [" echo a", "history"])).2.out.collected ≠
          (sampleTerminal.typeLines false
            [" echo a", "history"]).2.out.collected := by
  decide +kernel

end Terminal

end PipeShell
