import PipeShell.Channel.Writer
import PipeShell.Proofs.FileReaders
import PipeShell.Proofs.Files

namespace PipeShell

namespace Machine

/-- The file behind the handle is open, and this is its content: each text goes to
its end. -/
structure Writes (machine : Machine) (handle : Nat) (path : String) (append : Bool)
    (content : List UInt8) : Prop where
  file : ∃ names, machine.files.Stands path names content ∧
    machine.outputs[handle]? = some ⟨path, names, append, if append then 0
      else content.length, false⟩

variable {machine opened : Machine} {handle : Nat} {path : String} {append : Bool}
  {content : List UInt8}

private theorem writes_of_openOutput
    (hopen : machine.openOutput path append = .ok (opened, handle)) :
    opened.Writes handle path append
      (if append then (machine.files.read? path).getD [] else []) := by
  unfold openOutput at hopen
  split at hopen
  · cases hopen
  · next hplain =>
      split at hopen
      · cases hopen
      · next files names hfiles =>
          cases hopen
          refine ⟨names, FileTree.stands_of_openForWriting (by simpa using hplain)
            hfiles, ?_⟩
          cases append <;> simp

private theorem Writes.writeOutput
    (hwrites : machine.Writes handle path append content) (text : String) :
    ∃ next, machine.writeOutput handle text = .ok next ∧
      next.Writes handle path append (content ++ Text.Utf8.encode text) := by
  obtain ⟨names, hstands, houtput⟩ := hwrites.file
  have hset : (machine.files.set names
      (.file (content ++ Text.Utf8.encode text))).Stands path names
        (content ++ Text.Utf8.encode text) := hstands.set _
  unfold Machine.writeOutput
  rw [houtput]
  cases append with
  | true =>
      refine ⟨_, rfl, names, ?_, houtput⟩
      simpa [FileTree.append, hstands.content_eq] using hset
  | false =>
      refine ⟨_, rfl, names, ?_, ?_⟩
      · have hend : content.drop (content.length + (Text.Utf8.encode text).length) =
            [] :=
          List.drop_eq_nil_of_le (Nat.le_add_right ..)
        simpa [FileTree.writeAt, hstands.content_eq, hend] using hset
      · have hhandle : handle < machine.outputs.length :=
          (List.getElem?_eq_some_iff.mp houtput).1
        simp [hhandle]

private theorem Writes.read?_close
    (hwrites : machine.Writes handle path append content) :
    (machine.closeOutput handle).files.read? path = some content := by
  obtain ⟨names, hstands, houtput⟩ := hwrites.file
  rw [closeOutput, houtput]
  exact hstands.read?_eq

end Machine

namespace Channel

/-- A part of a line, or the end of a line with its end. -/
inductive Writing where
  | part (text : String)
  | line (text : String)
  deriving DecidableEq, Repr

namespace Writing

def run (writing : Writing) (writer : Writer) (machine : Machine) :
    Except Fault (Writer × Machine) :=
  match writing with
  | .part text => writer.write machine text
  | .line text => writer.writeLine machine text

def runAll : List Writing → Writer → Machine → Except Fault (Writer × Machine)
  | [], writer, machine => .ok (writer, machine)
  | writing :: rest, writer, machine =>
      match writing.run writer machine with
      | .error fault => .error fault
      | .ok (writer, machine) => runAll rest writer machine

def text : Writing → String
  | .part text => text
  | .line text => text

def isLine : Writing → Bool
  | .part _ => false
  | .line _ => true

/-- Neither a carriage return nor a line feed stands within a line. -/
def Plain (writing : Writing) : Prop :=
  '\r' ∉ writing.text.toList ∧ '\n' ∉ writing.text.toList

def octets : Writing → List UInt8
  | .part text => Text.Utf8.encode text
  | .line text => Text.Utf8.encode (text ++ "\n")

def written : Writing → List Char
  | .part text => text.toList
  | .line text => text.toList ++ ['\n']

instance : DecidablePred Plain := fun _ => inferInstanceAs (Decidable (_ ∧ _))

variable {writing : Writing} {writings : List Writing}

private theorem return_notMem_written (hplain : writing.Plain) :
    '\r' ∉ writing.written := by
  cases writing with
  | part text => exact hplain.1
  | line text =>
      have htext : '\r' ∉ text.toList := hplain.1
      simpa [written] using htext

variable {machine : Machine} {handle : Nat} {path : String} {append : Bool}
  {content : List UInt8}

private theorem run_file (hwrites : machine.Writes handle path append content)
    (writing : Writing) :
    ∃ next, writing.run (.file handle) machine = .ok (.file handle, next) ∧
      next.Writes handle path append (content ++ writing.octets) := by
  have hwrite : ∀ text, ∃ next,
      Writer.write (.file handle) machine text = .ok (.file handle, next) ∧
        next.Writes handle path append (content ++ Text.Utf8.encode text) := by
    intro text
    obtain ⟨next, hnext, hwrites'⟩ := hwrites.writeOutput text
    refine ⟨next, ?_, hwrites'⟩
    rw [Writer.write, hnext]
    rfl
  cases writing with
  | part text => exact hwrite text
  | line text => exact hwrite (text ++ "\n")

private theorem runAll_file (hwrites : machine.Writes handle path append content)
    (writings : List Writing) :
    ∃ next, runAll writings (.file handle) machine = .ok (.file handle, next) ∧
      next.Writes handle path append (content ++ writings.flatMap octets) := by
  induction writings generalizing machine content with
  | nil => exact ⟨machine, rfl, by simpa using hwrites⟩
  | cons writing rest ih =>
      obtain ⟨next, hrun, hnext⟩ := run_file hwrites writing
      obtain ⟨last, hrest, hlast⟩ := ih hnext
      refine ⟨last, ?_, ?_⟩
      · rw [runAll, hrun]
        exact hrest
      · rwa [List.flatMap_cons, ← List.append_assoc]

theorem text?_append_octets {chars : List Char}
    (hchars : Text.Utf8.Decoder.start.text? content = some chars)
    (writings : List Writing) :
    Text.Utf8.Decoder.start.text? (content ++ writings.flatMap octets) =
      some (chars ++ writings.flatMap written) := by
  induction writings generalizing content chars with
  | nil => simpa using hchars
  | cons writing rest ih =>
      have hfirst : Text.Utf8.Decoder.start.text? (content ++ writing.octets) =
          some (chars ++ writing.written) := by
        cases writing with
        | part text => exact Text.Utf8.Decoder.text?_append_encode hchars text
        | line text =>
            have hline : (text ++ "\n").toList = written (.line text) :=
              String.toList_append
            rw [← hline]
            exact Text.Utf8.Decoder.text?_append_encode hchars (text ++ "\n")
      rw [List.flatMap_cons, List.flatMap_cons, ← List.append_assoc,
        ← List.append_assoc, ih hfirst]

/-- The line buffer has the lines of the text that a file would have. -/
theorem runAll_lines (hplain : ∀ writing ∈ writings, writing.Plain)
    {buffer : LineBuffer} (hrest : '\n' ∉ buffer.rest.toList) (machine : Machine) :
    ∃ final, runAll writings (.lines buffer) machine = .ok (.lines final, machine) ∧
      final.flush.lines.toList = buffer.lines.toList ++
        (linesOf (buffer.rest.toList ++ writings.flatMap written)).map
          String.ofList ∧
      final.lines.size = buffer.lines.size + writings.countP isLine := by
  induction writings generalizing buffer with
  | nil =>
      refine ⟨buffer, rfl, ?_, rfl⟩
      rw [List.flatMap_nil, List.append_nil, linesOf_last hrest, LineBuffer.flush]
      by_cases hempty : buffer.rest = ""
      · simp [hempty]
      · simp [hempty, LineBuffer.writeLine]
  | cons writing rest ih =>
      have hwriting : writing.Plain := hplain writing List.mem_cons_self
      have hmore : ∀ writing ∈ rest, writing.Plain := fun writing hmem =>
        hplain writing (List.mem_cons_of_mem _ hmem)
      cases writing with
      | part text =>
          have hlonger : '\n' ∉ (buffer.write text).rest.toList := by
            simpa [LineBuffer.write] using ⟨hrest, hwriting.2⟩
          obtain ⟨final, hrun, hlines, hcount⟩ := ih hmore hlonger
          refine ⟨final, hrun, ?_, ?_⟩
          · rw [hlines]
            simp [LineBuffer.write, written]
          · rw [hcount, List.countP_cons_of_neg (by simp [isLine])]
            rfl
      | line text =>
          have hempty : '\n' ∉ (buffer.writeLine text).rest.toList := by
            simp [LineBuffer.writeLine]
          have hline : '\n' ∉ buffer.rest.toList ++ text.toList := by
            simpa using ⟨hrest, hwriting.2⟩
          obtain ⟨final, hrun, hlines, hcount⟩ := ih hmore hempty
          refine ⟨final, hrun, ?_, ?_⟩
          · have hcut := linesOf_line hline (rest.flatMap written)
            rw [hlines, List.flatMap_cons, written]
            simp only [LineBuffer.writeLine, List.append_assoc,
              List.singleton_append] at hcut ⊢
            rw [hcut]
            simp
          · rw [hcount, List.countP_cons_of_pos (by simp [isLine]),
              LineBuffer.writeLine, Array.size_push]
            omega

end Writing

private theorem LineBuffer.flush_lines (buffer : LineBuffer) :
    buffer.flush.lines.toList =
      buffer.lines.toList ++ if buffer.rest = "" then [] else [buffer.rest] := by
  rw [flush]
  split
  · simp
  · simp [writeLine]

theorem fileLines?_append_octets {content : List UInt8} {old : List String}
    {writings : List Writing} (hold : fileLines? content = some old)
    (hend : content = [] ∨ content.getLast? = some 10)
    (hplain : ∀ writing ∈ writings, writing.Plain) :
    fileLines? (content ++ writings.flatMap Writing.octets) =
      some (old ++ (linesOf (writings.flatMap Writing.written)).map
        String.ofList) := by
  obtain ⟨chars, hchars, rfl⟩ := Option.map_eq_some_iff.mp hold
  have hlast : chars = [] ∨ chars.getLast? = some '\n' := by
    rcases hend with rfl | hend
    · cases hchars
      exact .inl rfl
    · exact .inr (Text.Utf8.Decoder.getLast?_newline hchars hend)
  have hunified : unifyNewlines chars = [] ∨
      (unifyNewlines chars).getLast? = some '\n' := by
    rcases hlast with rfl | hlast
    · exact .inl rfl
    · exact .inr (getLast?_unifyNewlines hlast)
  have hnew : '\r' ∉ writings.flatMap Writing.written := by
    intro hmem
    obtain ⟨writing, hwriting, hin⟩ := List.mem_flatMap.mp hmem
    exact Writing.return_notMem_written (hplain writing hwriting) hin
  have hapart : chars.getLast? ≠ some '\r' := by
    rcases hlast with rfl | hlast
    · simp
    · simp [hlast]
  rw [fileLines?, Writing.text?_append_octets hchars, Option.map_some,
    unifyNewlines_append (.inl hapart), unifyNewlines_of_notMem hnew,
    linesOf_append hunified, List.map_append]

/-- A file that has been written and closed gives the lines that a buffer collects
from the same writings. Lines already in the file come first, if the last of them is
complete. -/
theorem readAll_written {machine opened : Machine} {path : String} {append : Bool}
    {handle : Nat} {writings : List Writing}
    (hopen : machine.openOutput path append = .ok (opened, handle))
    (hplain : ∀ writing ∈ writings, writing.Plain) : ∃ written buffer,
      Writing.runAll writings (.file handle) opened = .ok (.file handle, written) ∧
      Writing.runAll writings (.lines .empty) machine =
        .ok (.lines buffer, machine) ∧
      buffer.lines.size = writings.countP Writing.isLine ∧
      buffer.flush.lines.toList =
        buffer.lines.toList ++ (if buffer.rest = "" then [] else [buffer.rest]) ∧
      (append = false ∨ machine.files.read? path = none →
        Source.readAll false (written.closeOutput handle).files (.file path) =
          .ok buffer.flush.lines.toList) ∧
      (append = true → ∀ content old, machine.files.read? path = some content →
        content = [] ∨ content.getLast? = some 10 →
        Source.readAll false machine.files (.file path) = .ok old →
        Source.readAll false (written.closeOutput handle).files (.file path) =
          .ok (old ++ buffer.flush.lines.toList)) := by
  obtain ⟨buffer, hbuffer, hlines, hcount⟩ :=
    @Writing.runAll_lines writings hplain .empty (by simp [LineBuffer.empty]) machine
  obtain ⟨written, hwritten, hwrites⟩ :=
    Writing.runAll_file (Machine.writes_of_openOutput hopen) writings
  generalize hbefore : (if append then (machine.files.read? path).getD [] else []) =
    before at hwrites
  have hread : ∀ old, fileLines? before = some old → before = [] ∨
      before.getLast? = some 10 →
        Source.readAll false (written.closeOutput handle).files (.file path) =
          .ok (old ++ buffer.flush.lines.toList) := by
    intro old hold hend
    rw [Source.readAll_file_ok_iff, hwrites.read?_close, Option.bind_some,
      fileLines?_append_octets hold hend hplain, hlines]
    rfl
  refine ⟨written, buffer, hwritten,
    hbuffer, by simpa [LineBuffer.empty] using hcount, buffer.flush_lines, ?_, ?_⟩
  · intro hfresh
    have hempty : before = [] := by
      rw [← hbefore]
      rcases hfresh with rfl | hmissing
      · rfl
      · rw [hmissing]
        split <;> rfl
    exact hread [] (by rw [hempty]; rfl) (.inl hempty)
  · intro happend content old hcontent hend hold
    have hsame : before = content := by
      rw [← hbefore, if_pos happend, hcontent]
      rfl
    rw [Source.readAll_file_ok_iff, hcontent, Option.bind_some] at hold
    exact hread old (hsame ▸ hold) (hsame ▸ hend)

def notedMachine : Machine :=
  .new ⟨[(["notes"], .file [111, 108, 100, 10])]⟩ "/" 0 false

def mixedWritings :
    List Writing := [.part "a", .line "é", .line "", .part "", .part "end"]

theorem readAll_written_notes :
    ∃ opened handle written, notedMachine.openOutput "/notes" true =
      .ok (opened, handle) ∧
      Writing.runAll mixedWritings (.file handle) opened =
        .ok (.file handle, written) ∧
      Source.readAll false (written.closeOutput handle).files (.file "/notes") =
        .ok ["old", "aé", "", "end"] := by
  have hopen : notedMachine.openOutput "/notes" true =
      .ok ({ notedMachine with outputs := [⟨"/notes", ["notes"], true, 0, false⟩] },
        0) := rfl
  have hplain : ∀ writing ∈ mixedWritings, writing.Plain := by
    decide +kernel
  have hold : Source.readAll false notedMachine.files (.file "/notes") =
      .ok ["old"] := by
    rw [Source.readAll_file_ok_iff]
    decide +kernel
  obtain ⟨written, buffer, hwritten, hbuffer, -, -, -, happended⟩ :=
    readAll_written hopen hplain
  have hlines : Writing.runAll mixedWritings (.lines .empty) notedMachine =
      .ok (.lines ⟨#["aé", ""], "end"⟩, notedMachine) := rfl
  rw [hlines] at hbuffer
  cases hbuffer
  exact ⟨_, 0, written, hopen, hwritten,
    happended rfl [111, 108, 100, 10] ["old"] (by decide +kernel) (by decide) hold⟩

end Channel

end PipeShell
