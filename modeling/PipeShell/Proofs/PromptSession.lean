import PipeShell.Proofs.Directories
import PipeShell.Proofs.Lines
import PipeShell.Repl

namespace PipeShell

open Channel (Source Writer)

namespace Machine

def SameButConsole (left right : Machine) : Prop :=
  ∃ out err, left = { right with console := ⟨out, err, right.console.isTerminal⟩ }

namespace SameButConsole

variable {left right : Machine}

theorem refl (machine : Machine) : SameButConsole machine machine := ⟨_, _, rfl⟩

private theorem print_left (hsame : SameButConsole left right) (text : String) :
    SameButConsole (left.print text) right := by
  obtain ⟨out, err, rfl⟩ := hsame
  exact ⟨_, _, rfl⟩

private theorem printError_left (hsame : SameButConsole left right) (text : String) :
    SameButConsole (left.printError text) right := by
  obtain ⟨out, err, rfl⟩ := hsame
  exact ⟨_, _, rfl⟩

theorem print (hsame : SameButConsole left right) (text : String) :
    SameButConsole (left.print text) (right.print text) := by
  obtain ⟨out, err, rfl⟩ := hsame
  exact ⟨_, _, rfl⟩

private theorem note (hsame : SameButConsole left right) (note : Journal.Note) :
    SameButConsole (left.note note) (right.note note) := by
  obtain ⟨out, err, rfl⟩ := hsame
  obtain ⟨userHome, files, outputs, console, clock, journal⟩ := right
  unfold Machine.note
  cases journal with
  | none => exact ⟨_, _, rfl⟩
  | some journal =>
      dsimp only
      split
      · unfold publish
        cases journal.console <;> cases journal.file <;> exact ⟨_, _, rfl⟩
      · exact ⟨_, _, rfl⟩

private theorem openOutput (hsame : SameButConsole left right) (path : String)
    (append : Bool) :
    Agree (fun opened opened' => SameButConsole opened.1 opened'.1 ∧
      opened.2 = opened'.2) (left.openOutput path append)
        (right.openOutput path append) := by
  obtain ⟨out, err, rfl⟩ := hsame
  unfold Machine.openOutput
  split
  · rfl
  · dsimp only
    rcases right.files.openForWriting path append with fault | ⟨files, names⟩
    · rfl
    · exact ⟨⟨_, _, rfl⟩, rfl⟩

private theorem closeOutput (hsame : SameButConsole left right) (handle : Nat) :
    SameButConsole (left.closeOutput handle) (right.closeOutput handle) := by
  obtain ⟨out, err, rfl⟩ := hsame
  unfold Machine.closeOutput
  dsimp only
  cases right.outputs[handle]? <;> exact ⟨_, _, rfl⟩

private theorem writeOutput (hsame : SameButConsole left right) (handle : Nat)
    (text : String) :
    Agree SameButConsole (left.writeOutput handle text)
      (right.writeOutput handle text) := by
  obtain ⟨out, err, rfl⟩ := hsame
  unfold Machine.writeOutput
  dsimp only
  cases right.outputs[handle]? with
  | none => exact ⟨_, _, rfl⟩
  | some output =>
      dsimp only
      split
      · rfl
      · split <;> exact ⟨_, _, rfl⟩

theorem write (hsame : SameButConsole left right) (writer : Writer) (text : String) :
    Agree (fun written written' => written.1 = written'.1 ∧
      SameButConsole written.2 written'.2) (writer.write left text)
        (writer.write right text) := by
  cases writer with
  | text | lines => exact ⟨rfl, hsame⟩
  | file handle =>
      exact (hsame.writeOutput handle text).map fun _ _ hwritten => ⟨rfl, hwritten⟩
  | console => exact ⟨rfl, hsame.print text⟩
  | errorConsole =>
      obtain ⟨out, err, rfl⟩ := hsame
      exact ⟨rfl, _, _, rfl⟩

private theorem writeLine (hsame : SameButConsole left right) (writer : Writer)
    (line : String) :
    Agree (fun written written' => written.1 = written'.1 ∧
      SameButConsole written.2 written'.2) (writer.writeLine left line)
        (writer.writeLine right line) := by
  cases writer with
  | lines => exact ⟨rfl, hsame⟩
  | text written => exact hsame.write (.text written) (line ++ "\n")
  | file handle => exact hsame.write (.file handle) (line ++ "\n")
  | console => exact hsame.write .console (line ++ "\n")
  | errorConsole => exact hsame.write .errorConsole (line ++ "\n")

end SameButConsole

theorem seen_sameButConsole : Seen SameButConsole Eq where
  same _ := rfl
  note hsame hnote := hnote ▸ hsame.note _
  isFile := by
    rintro _ right ⟨out, err, rfl⟩ path
    rfl
  isDirectory := by
    rintro _ right ⟨out, err, rfl⟩ path
    rfl
  contains := by
    rintro _ right ⟨out, err, rfl⟩ path
    rfl
  openOutput := SameButConsole.openOutput
  closeOutput := SameButConsole.closeOutput
  write := SameButConsole.write
  writeLine := SameButConsole.writeLine
  files := by
    rintro _ right ⟨out, err, rfl⟩
    rfl
  print := SameButConsole.print

private theorem recorded_sameButConsole : Recorded SameButConsole where
  journal := by
    rintro _ right ⟨out, err, rfl⟩
    rfl
  clearJournal := by
    rintro _ right ⟨out, err, rfl⟩
    exact ⟨_, _, rfl⟩

end Machine

namespace Terminal

open Act

private theorem linked_owner : Owner.Linked Eq owner owner where
  directory := by
    rintro place _ rfl
    rfl
  previous := by
    rintro place _ rfl
    rfl
  history := by
    rintro place _ rfl
    rfl
  moved := by
    rintro place _ rfl path
    rfl
  clearing := rfl
  cleared := by
    rintro place _ clear clear' hclear hclear' rfl
    cases hclear.symm.trans hclear'
    rfl
  deleting := rfl
  deleted := by
    rintro place _ delete delete' hdelete hdelete' rfl position
    cases hdelete.symm.trans hdelete'
    exact ⟨rfl, rfl⟩

private theorem linked_interpret_sameButConsole (parsers : Parsers) (home : String)
    (input : Source) (text : String) :
    Related (Session.Linked Machine.SameButConsole Eq)
      (Execution.interpret owner parsers home input text)
      (Execution.interpret owner parsers home input text) :=
  Execution.linked_interpretWith Machine.seen_sameButConsole.toSteady linked_owner
    (fun bound context => bound.command.linked_run Machine.seen_sameButConsole
      linked_owner context fun _ => Machine.recorded_sameButConsole)
    parsers home input text

def SameButConsole (left right : Terminal) : Prop :=
  ∃ machine, left = { right with machine } ∧ machine.SameButConsole right.machine

variable {left right : Terminal}

namespace SameButConsole

theorem refl (terminal : Terminal) : SameButConsole terminal terminal :=
  ⟨_, rfl, .refl _⟩

private theorem trans {first second third : Terminal}
    (hfirst : SameButConsole first second) (hsecond : SameButConsole second third) :
    SameButConsole first third := by
  obtain ⟨_, rfl, out, err, rfl⟩ := hfirst
  obtain ⟨_, rfl, out', err', rfl⟩ := hsecond
  exact ⟨_, rfl, _, _, rfl⟩

private theorem addHistory (hsame : SameButConsole left right) (text : String) :
    (left.addHistory text).1 = (right.addHistory text).1 ∧
      SameButConsole (left.addHistory text).2 (right.addHistory text).2 := by
  obtain ⟨machine, rfl, hmachine⟩ := hsame
  unfold Terminal.addHistory
  dsimp only
  split
  · exact ⟨rfl, machine, rfl, hmachine⟩
  · cases (right.memory.addLine (right.config.get .ignoreDuplicates).truthy
      text).trim
      (right.config.get .maxHistory) <;> exact ⟨rfl, machine, rfl, hmachine⟩

private theorem sessionFor (hsame : SameButConsole left right) (streams : Streams) :
    Session.Linked Machine.SameButConsole Eq (left.sessionFor streams)
      (right.sessionFor streams) := by
  obtain ⟨machine, rfl, hmachine⟩ := hsame
  exact ⟨hmachine, rfl, rfl, rfl, rfl, rfl, rfl⟩

private theorem ended (hsame : SameButConsole left right)
    {end₁ end₂ : Except Fault ExitCode × Session Memory} (hresult : end₁.1 = end₂.1)
    (hafter : Session.Linked Machine.SameButConsole Eq end₁.2 end₂.2) :
    (left.ended end₁).settle.1 = (right.ended end₂).settle.1 ∧
      SameButConsole (left.ended end₁).settle.2 (right.ended end₂).settle.2 := by
  obtain ⟨machine, rfl, -⟩ := hsame
  have howner : end₁.2.owner = end₂.2.owner := congrArg Place.owner hafter.place
  refine ⟨hresult, end₁.2.machine, ?_, hafter.machine⟩
  simp only [Terminal.ended, LineResult.settle, absorb, hafter.registry, hafter.out,
    hafter.err, howner]

theorem runLine (hsame : SameButConsole left right) (input : Source)
    (cancelled : Bool) (text : String) :
    (left.runLine input cancelled text).1 = (right.runLine input cancelled text).1 ∧
      SameButConsole (left.runLine input cancelled text).2
        (right.runLine input cancelled text).2 := by
  have hstreams : left.ownStreams input cancelled = right.ownStreams input
      cancelled := by
    obtain ⟨machine, rfl, -⟩ := hsame
    rfl
  rw [Terminal.runLine, Terminal.runLine, hstreams]
  cases hblank : Text.allBlank text with
  | true =>
      obtain ⟨machine, rfl, hmachine⟩ := hsame
      rw [runOn, runOn, if_pos hblank, if_pos hblank]
      exact ⟨rfl, machine, rfl, hmachine⟩
  | false =>
      obtain ⟨hadded, hrecorded⟩ := hsame.addHistory text
      rcases hleft : left.addHistory text with ⟨fault | added, recorded⟩ <;>
        rcases hright : right.addHistory text with ⟨fault' | added', recorded'⟩ <;>
        rw [hleft, hright] at hadded hrecorded
      · obtain ⟨machine, rfl, hmachine⟩ := hrecorded
        rw [runOn, runOn, if_neg (by simp [hblank]), if_neg (by simp [hblank]),
          hleft, hright]
        cases hadded
        exact ⟨rfl, machine, rfl, hmachine⟩
      · exact nomatch hadded
      · exact nomatch hadded
      · have hparsers : recorded.parsers = recorded'.parsers ∧
            recorded.home = recorded'.home := by
          obtain ⟨machine, rfl, -⟩ := hrecorded
          exact ⟨rfl, rfl⟩
        obtain ⟨hresult, hafter⟩ :=
          linked_interpret_sameButConsole recorded'.parsers recorded'.home
          input text _ _ (hrecorded.sessionFor (right.ownStreams input cancelled))
        obtain ⟨hresult, hafter⟩ := related_orElse
          (linked_reportFailure Machine.seen_sameButConsole.toSteady) hresult hafter
        rw [runOn_of_added hblank hleft, runOn_of_added hblank hright, hparsers.1,
          hparsers.2]
        exact hrecorded.ended hresult hafter

theorem print (hsame : SameButConsole left right) (text : String) :
    SameButConsole (Repl.printed left text) right := by
  obtain ⟨machine, rfl, hmachine⟩ := hsame
  exact ⟨_, rfl, hmachine.print_left text⟩

end SameButConsole

end Terminal

namespace Repl

open Terminal (SameButConsole)

/-- The code of a line, however it ends: one that is cancelled, or breaks off, has
failed. -/
def exitOf : Except Fault ExitCode → ExitCode
  | .ok code => code
  | .error _ => .runtimeError

def Keys.line? : Keys → Option String
  | .line text => some text
  | .interrupt => none

def entered (keys : List Keys) : List String :=
  (keys.filterMap Keys.line?).takeWhile fun text => !leaves text

/-- The codes of lines that are run one after the other, without a prompt. -/
def codes (terminal : Terminal) : List String → List ExitCode
  | [] => []
  | text :: rest =>
      let (result, next) := terminal.runLine .empty false text
      exitOf result :: codes next rest

/-- The code of the last line that is not blank. -/
def lastCode (terminal : Terminal) (lines : List String) : ExitCode :=
  (codes terminal (lines.filter fun text => !Text.allBlank text)).getLast?.getD
    .success

private theorem runTyped_spec (terminal : Terminal) (text : String) :
    (runTyped terminal text).1 = exitOf (terminal.runLine .empty false text).1 ∧
      SameButConsole (runTyped terminal text).2
        (terminal.runLine .empty false text).2 := by
  unfold runTyped
  split
  · next heq =>
      rw [heq]
      exact ⟨rfl, .refl _⟩
  · next heq =>
      rw [heq]
      exact ⟨rfl, _, rfl, (Machine.SameButConsole.refl _).printError_left _⟩
  · next heq =>
      rw [heq]
      exact ⟨rfl, .refl _⟩

private theorem runLine_blank {text : String} (hblank : Text.allBlank text = true)
    (terminal : Terminal) :
    terminal.runLine .empty false text = (.ok .success, terminal) := by
  rw [Terminal.runLine, Terminal.runOn, if_pos hblank]
  rfl

/-- The code that is reported when lines have been entered after a code. -/
def reported (last : ExitCode) (terminal : Terminal) : List String → ExitCode
  | [] => last
  | text :: rest =>
      let (result, next) := terminal.runLine .empty false text
      reported (exitOf result) next rest

/-- Prompts and interrupts only show on the console. -/
theorem loop_reported {shown terminal : Terminal}
    (hsame : SameButConsole shown terminal) (last : ExitCode) (keys : List Keys) :
    (loop last shown keys).1 = reported last terminal (entered keys) := by
  induction keys generalizing last shown terminal with
  | nil => rfl
  | cons key keys ih =>
      cases key with
      | interrupt => exact ih (hsame.print _) last
      | line text =>
          have hprompted := hsame.print shown.prompt
          simp only [entered, loop, List.filterMap_cons, Keys.line?,
            List.takeWhile_cons]
          cases leaves text with
          | true => rfl
          | false =>
              obtain ⟨hcode, hafter⟩ :=
                runTyped_spec (printed shown shown.prompt) text
              obtain ⟨hresult, hnext⟩ := hprompted.runLine .empty false text
              rw [hresult] at hcode
              simp only [Bool.false_eq_true, if_false, Bool.not_false, if_true,
                reported, ← hcode]
              exact ih (hafter.trans hnext) _

private theorem getLast?_codes_isSome (terminal : Terminal) {lines : List String}
    (hlines : lines ≠ []) : (codes terminal lines).getLast?.isSome = true := by
  cases lines with
  | nil => exact absurd rfl hlines
  | cons text rest => simp [codes]

private theorem reported_eq (last : ExitCode) (terminal : Terminal)
    (lines : List String) :
    reported last terminal lines =
      match lines.getLast? with
      | none => last
      | some text =>
          if Text.allBlank text then .success else lastCode terminal lines := by
  induction lines generalizing last terminal with
  | nil => rfl
  | cons text rest ih =>
      simp only [reported, ih, List.getLast?_cons]
      cases hlast : rest.getLast? with
      | none =>
          obtain rfl := List.getLast?_eq_none_iff.mp hlast
          cases hblank : Text.allBlank text with
          | true => simp [runLine_blank hblank, exitOf, hblank]
          | false => simp [lastCode, hblank, codes]
      | some final =>
          cases hfinal : Text.allBlank final with
          | true => simp [hfinal]
          | false =>
              cases hblank : Text.allBlank text with
              | true => simp [hfinal, runLine_blank hblank, lastCode, hblank]
              | false =>
                  have hmem : final ∈ rest.filter fun text => !Text.allBlank text :=
                    List.mem_filter.mpr ⟨List.mem_of_getLast?
                      hlast, by simp [hfinal]⟩
                  have hsome := getLast?_codes_isSome
                    (terminal.runLine .empty false text).2
                    (List.ne_nil_of_mem hmem)
                  obtain ⟨code, hcode⟩ := Option.isSome_iff_exists.mp hsome
                  simp [hfinal, lastCode, hblank, codes, List.getLast?_cons, hcode]

/-- The prompt reports the code of the last line that is not blank, as if only such
lines had been run, one after the other; but a blank line that is entered last is
reported as a success. -/
theorem run_reports (terminal : Terminal) (keys : List Keys) :
    ((run terminal keys).1 =
      if (entered keys).getLast?.any Text.allBlank then .success
      else lastCode terminal (entered keys)) ∧
    ((run terminal keys).1 = lastCode terminal (entered keys) ↔
      (entered keys).getLast?.any Text.allBlank = false ∨
        lastCode terminal (entered keys) = .success) := by
  have hcode : (run terminal keys).1 =
      if (entered keys).getLast?.any Text.allBlank then .success
      else lastCode terminal (entered keys) := by
    rw [run, loop_reported ((SameButConsole.refl terminal).print greeting),
      reported_eq]
    cases hlast : (entered keys).getLast? with
    | none =>
        rw [List.getLast?_eq_none_iff.mp hlast]
        rfl
    | some text => rfl
  refine ⟨hcode, ?_⟩
  rw [hcode]
  cases (entered keys).getLast?.any Text.allBlank with
  | true => simp [eq_comm]
  | false => simp

/-- A blank line hides that the line before it failed. -/
theorem run_forgets_failure :
    (run Terminal.sampleTerminal [.line "echo 'x", .line ""]).1 = .success ∧
      lastCode Terminal.sampleTerminal (entered [.line "echo 'x", .line ""]) =
        .usageError := by
  decide +kernel

end Repl

end PipeShell
