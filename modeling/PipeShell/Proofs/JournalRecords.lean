import PipeShell.Proofs.Files
import PipeShell.Proofs.LinkedSessions

namespace PipeShell

namespace FileTree

/-- A node as it looks when the content of the file at `hidden` does not count. -/
def veil (hidden : Option (List String)) (names : List String) (node : Node) :
    Node :=
  match node with
  | .file content => .file (if hidden = some names then [] else content)
  | .directory => .directory

def hide (hidden : Option (List String)) (tree : FileTree) : FileTree :=
  ⟨tree.entries.map fun entry => (entry.1, veil hidden entry.1 entry.2)⟩

variable {hidden : Option (List String)} {left right : FileTree}

theorem get?_hide (tree : FileTree) (names : List String) :
    (tree.hide hidden).get? names = (tree.get? names).map (veil hidden names) := by
  unfold get?
  by_cases hroot : names.isEmpty = true
  · rw [if_pos hroot, if_pos hroot]
    rfl
  · rw [if_neg hroot, if_neg hroot, hide, List.find?_map]
    cases hfound : tree.entries.find? (·.1 = names) with
    | none =>
        have hnone : tree.entries.find? ((fun entry => decide (entry.1 = names)) ∘
            fun entry => (entry.1, veil hidden entry.1 entry.2)) = none := hfound
        rw [hnone]
        rfl
    | some entry =>
        have hsome : tree.entries.find? ((fun entry => decide (entry.1 = names)) ∘
            fun entry => (entry.1, veil hidden entry.1 entry.2)) = some entry :=
              hfound
        have hname : entry.1 = names := by simpa using List.find?_some hfound
        rw [hsome, ← hname]
        rfl

theorem hide_set (tree : FileTree) (names : List String) (node : Node) :
    (tree.set names node).hide hidden = (tree.hide hidden).set names
    (veil hidden names node) := by
  obtain ⟨entries⟩ := tree
  unfold set hide
  refine congrArg FileTree.mk ?_
  induction entries with
  | nil => rfl
  | cons entry rest ih =>
      obtain ⟨key, old⟩ := entry
      by_cases hkey : key = names
      · subst hkey
        simp only [setIn, if_true, List.map_cons]
      · simp only [setIn, if_neg hkey, List.map_cons]
        exact congrArg _ ih

theorem walk_hide (tree : FileTree) (current parts : List String) :
    (tree.hide hidden).walk current parts =
      (tree.walk current parts).map fun found =>
      (found.1, veil hidden found.1 found.2) := by
  induction parts generalizing current with
  | nil =>
      rw [walk, walk, get?_hide]
      cases tree.get? current <;> rfl
  | cons part parts ih =>
      rw [walk, walk, get?_hide]
      cases tree.get? current with
      | none => rfl
      | some node =>
          cases node with
          | file content => rfl
          | directory =>
              simp only [Option.map_some, veil, ih]
              split
              · rfl
              · split
                · rfl
                · split <;> rfl

theorem locate_hide (tree : FileTree) (path : String) :
    (tree.hide hidden).locate path =
      (tree.locate path).map fun found =>
      (found.1, veil hidden found.1 found.2) := by
  unfold locate
  split
  · rfl
  · exact walk_hide tree [] _

private theorem isFile_hide (tree : FileTree) (path : String) :
    (tree.hide hidden).isFile path = tree.isFile path := by
  rw [isFile, isFile, locate_hide]
  rcases tree.locate path with fault | ⟨names, content | _⟩ <;> rfl

private theorem isDirectory_hide (tree : FileTree) (path : String) :
    (tree.hide hidden).isDirectory path = tree.isDirectory path := by
  rw [isDirectory, isDirectory, locate_hide]
  rcases tree.locate path with fault | ⟨names, content | _⟩ <;> rfl

private theorem contains_hide (tree : FileTree) (path : String) :
    (tree.hide hidden).contains path = tree.contains path := by
  rw [contains, contains, locate_hide]
  rcases tree.locate path with fault | found <;> rfl

private theorem place_hide (tree : FileTree) (path : String) :
    (tree.hide hidden).place path = tree.place path := by
  unfold place
  simp only [walk_hide]
  generalize ((Text.split '/' path).reverse.dropWhile (· = "")).reverse = kept
  cases kept.getLast? with
  | none => rfl
  | some last =>
      rcases tree.walk [] kept.dropLast with fault | ⟨names, content | _⟩ <;> rfl

private theorem openForWriting_hide (tree : FileTree) (path : String)
    (append : Bool) : (tree.hide hidden).openForWriting path append =
      (tree.openForWriting path append).map fun opened =>
      (opened.1.hide hidden, opened.2) := by
  have hempty : ∀ names, (tree.hide hidden).set names (.file []) =
      (tree.set names (.file [])).hide hidden := by
    intro names
    rw [hide_set, veil, ite_self]
  unfold openForWriting
  rw [place_hide]
  rcases tree.place path with fault | ⟨parent, name⟩
  · rfl
  · simp only [get?_hide]
    match tree.get? (parent ++ [name]) with
    | none => simp only [Option.map_none, hempty, Except.map]
    | some .directory => rfl
    | some (.file content) =>
        cases append with
        | true => rfl
        | false =>
            simp only [Option.map_some, veil, hempty, Except.map, Bool.false_eq_true,
              if_false]

theorem content_eq_of_hide (hsame : left.hide hidden = right.hide hidden)
    {names : List String} (hother : hidden ≠ some names) :
    left.content names = right.content names := by
  have hnodes : (left.get? names).map (veil hidden names) =
      (right.get? names).map (veil hidden names) := by
    rw [← get?_hide, ← get?_hide, hsame]
  have hveil : ∀ node, veil hidden names node = node := by
    intro node
    cases node with
    | file content => rw [veil, if_neg hother]
    | directory => rfl
  have hid : veil hidden names = id := funext hveil
  rw [hid, Option.map_id, id, id] at hnodes
  rw [content, content, hnodes]

theorem hide_set_file (hsame : left.hide hidden = right.hide hidden)
    {names : List String} {content content' : List UInt8}
    (hcontent : hidden ≠ some names → content = content') :
    (left.set names (.file content)).hide hidden =
    (right.set names (.file content')).hide hidden := by
  rw [hide_set, hide_set, hsame, veil, veil]
  by_cases hnames : hidden = some names
  · rw [if_pos hnames, if_pos hnames]
  · rw [hcontent hnames]

private theorem hide_append (hsame : left.hide hidden = right.hide hidden)
    (names : List String) (bytes : List UInt8) :
    (left.append names bytes).hide hidden = (right.append names bytes).hide hidden :=
  hide_set_file hsame fun hother => by rw [content_eq_of_hide hsame hother]

private theorem hide_writeAt (hsame : left.hide hidden = right.hide hidden)
    (names : List String) (offset : Nat) (bytes : List UInt8) :
    (left.writeAt names offset bytes).hide hidden =
      (right.writeAt names offset bytes).hide hidden :=
  hide_set_file hsame fun hother => by rw [content_eq_of_hide hsame hother]

private theorem hide_none (tree : FileTree) : tree.hide none = tree := by
  obtain ⟨entries⟩ := tree
  have hentry : ∀ entry : List String × Node, (entry.1, veil none entry.1 entry.2) =
      entry := by
    rintro ⟨names, content | _⟩
    · rfl
    · rfl
  unfold hide
  simp only [hentry, List.map_id']

end FileTree

namespace Journal

/-- Texts that are the same but for records of the journal that stand in them. -/
inductive SameButRecords : String → String → Prop
  | same (text : String) : SameButRecords text text
  | text {left right : String} (hsame : SameButRecords left right) (more : String) :
      SameButRecords (left ++ more) (right ++ more)
  | record {left right : String} (hsame : SameButRecords left right)
      (entry entry' : Entry) (colours : Bool) :
      SameButRecords (left ++ (entry.line colours ++ "\n"))
        (right ++ (entry'.line colours ++ "\n"))

end Journal

namespace Machine

def journalFile (machine : Machine) : Option (List String) :=
  machine.journal.bind Journal.file

def journalConsole (machine : Machine) : Option Bool :=
  machine.journal.bind Journal.console

/-- Machines whose journals write to the same file, if to any, and that are the same
but for what the journals have recorded. -/
structure SameButRecords (file : Option (List String)) (left right : Machine) :
    Prop where
  journalFile : left.journalFile = file
  journal : left.journal.map Journal.clear = right.journal.map Journal.clear
  files : left.files.hide file = right.files.hide file
  outputs : left.outputs = right.outputs
  shown : left.console.out = right.console.out
  errors : Journal.SameButRecords left.console.err right.console.err
  quiet : left.journalConsole = none → left.console.err = right.console.err
  isTerminal : left.console.isTerminal = right.console.isTerminal
  userHome : left.userHome = right.userHome
  clock : left.clock = right.clock

namespace SameButRecords

variable {file : Option (List String)} {left right : Machine}

theorem refl (machine : Machine) :
    SameButRecords machine.journalFile machine machine :=
  ⟨rfl, rfl, rfl, rfl, rfl, .same _, fun _ => rfl, rfl, rfl, rfl⟩

theorem print (hsame : SameButRecords file left right) (text : String) :
    SameButRecords file (left.print text) (right.print text) :=
  { hsame with shown := congrArg (· ++ text) hsame.shown }

private theorem printError (hsame : SameButRecords file left right) (text : String) :
    SameButRecords file (left.printError text) (right.printError text) :=
  { hsame with
    errors := hsame.errors.text text
    quiet := fun hquiet => congrArg (· ++ text) (hsame.quiet hquiet) }

private theorem isFile (hsame : SameButRecords file left right) (path : String) :
    left.files.isFile path = right.files.isFile path := by
  rw [← FileTree.isFile_hide left.files, hsame.files, FileTree.isFile_hide]

private theorem closeOutput (hsame : SameButRecords file left right) (handle : Nat) :
    SameButRecords file (left.closeOutput handle) (right.closeOutput handle) := by
  unfold Machine.closeOutput
  rw [← hsame.outputs]
  cases left.outputs[handle]? with
  | none => exact hsame
  | some output =>
      exact { hsame with outputs := congrArg (List.set · handle _) hsame.outputs }

private theorem openOutput (hsame : SameButRecords file left right) (path : String)
    (append : Bool) :
    Agree (fun opened opened' => SameButRecords file opened.1 opened'.1 ∧
      opened.2 = opened'.2) (left.openOutput path append)
        (right.openOutput path append) := by
  unfold Machine.openOutput
  by_cases hzero : FileTree.hasZero path = true
  · rw [if_pos hzero, if_pos hzero]
    rfl
  · rw [if_neg hzero, if_neg hzero]
    have hopened : ((left.files.openForWriting path append).map fun opened =>
          (opened.1.hide file, opened.2)) =
        (right.files.openForWriting path append).map fun opened =>
          (opened.1.hide file, opened.2) := by
      rw [← FileTree.openForWriting_hide, ← FileTree.openForWriting_hide,
        hsame.files]
    cases hleft : left.files.openForWriting path append with
    | error fault =>
        cases hright : right.files.openForWriting path append with
        | error fault' =>
            rw [hleft, hright] at hopened
            cases hopened
            rfl
        | ok opened' => rw [hleft, hright] at hopened; cases hopened
    | ok opened =>
        cases hright : right.files.openForWriting path append with
        | error fault' => rw [hleft, hright] at hopened; cases hopened
        | ok opened' =>
            rw [hleft, hright] at hopened
            obtain ⟨tree, names⟩ := opened
            obtain ⟨tree', names'⟩ := opened'
            obtain ⟨htree, rfl⟩ := Prod.mk.inj (Except.ok.inj hopened)
            refine ⟨{ hsame with files := htree, outputs := ?_ }, ?_⟩
            · exact congrArg (· ++ [OutputFile.mk path names append 0 false])
                hsame.outputs
            · exact congrArg List.length hsame.outputs

private theorem writeOutput (hsame : SameButRecords file left right) (handle : Nat)
    (text : String) :
    Agree (SameButRecords file) (left.writeOutput handle text)
      (right.writeOutput handle text) := by
  have hfound : right.outputs[handle]? = left.outputs[handle]? := by
    rw [hsame.outputs]
  unfold Machine.writeOutput
  rw [hfound]
  cases left.outputs[handle]? with
  | none => exact hsame
  | some output =>
      cases hclosed : output.closed with
      | true => simp only [hclosed, if_true]; rfl
      | false =>
          cases happend : output.append with
          | true =>
              simp only [hclosed, happend, Bool.false_eq_true, if_false, if_true]
              exact { hsame with files := FileTree.hide_append hsame.files _ _ }
          | false =>
              simp only [hclosed, happend, Bool.false_eq_true, if_false]
              exact { hsame with
                files := FileTree.hide_writeAt hsame.files _ _ _
                outputs := congrArg (List.set · handle _) hsame.outputs }

theorem write (hsame : SameButRecords file left right) (writer : Channel.Writer)
    (text : String) :
    Agree (fun written written' => written.1 = written'.1 ∧
      SameButRecords file written.2 written'.2) (writer.write left text)
        (writer.write right text) := by
  cases writer with
  | text written => exact ⟨rfl, hsame⟩
  | lines buffer => exact ⟨rfl, hsame⟩
  | console => exact ⟨rfl, hsame.print text⟩
  | errorConsole => exact ⟨rfl, hsame.printError text⟩
  | file handle =>
      change Agree _ ((left.writeOutput handle text).map fun machine => (_, machine))
        ((right.writeOutput handle text).map fun machine => (_, machine))
      exact (hsame.writeOutput handle text).map fun _ _ hmachine => ⟨rfl, hmachine⟩

private theorem writeLine (hsame : SameButRecords file left right)
    (writer : Channel.Writer) (line : String) :
    Agree (fun written written' => written.1 = written'.1 ∧
      SameButRecords file written.2 written'.2) (writer.writeLine left line)
        (writer.writeLine right line) := by
  cases writer with
  | lines buffer => exact ⟨rfl, hsame⟩
  | text written => exact hsame.write (.text written) (line ++ "\n")
  | file handle => exact hsame.write (.file handle) (line ++ "\n")
  | console => exact hsame.write .console (line ++ "\n")
  | errorConsole => exact hsame.write .errorConsole (line ++ "\n")

theorem publish (hsame : SameButRecords file left right) {journal journal' : Journal}
    (hleft : left.journal = some journal) (hright : right.journal = some journal')
    (entry entry' : Journal.Entry) :
    SameButRecords file (left.publish journal entry)
      (right.publish journal' entry') := by
  have hjournal : some journal.clear = some journal'.clear := by
    have hcleared := hsame.journal
    rwa [hleft, hright] at hcleared
  have hfile : journal.file = file := by
    have hown := hsame.journalFile
    rwa [Machine.journalFile, hleft] at hown
  obtain ⟨level, capacity, entries, console, own⟩ := journal
  obtain ⟨level', capacity', entries', console', own'⟩ := journal'
  cases hjournal
  obtain rfl : own = file := hfile
  have hconsole : left.journalConsole = console := by rw [journalConsole, hleft]; rfl
  have hkept : SameButRecords own
      { left with
        journal :=
          some (Journal.keep ⟨level, capacity, entries, console, own⟩ entry) }
      { right with
        journal :=
          some (Journal.keep ⟨level, capacity, entries', console, own⟩ entry') } :=
    { hsame with
      journal := rfl
      journalFile := rfl
      quiet := fun hquiet => hsame.quiet (hconsole.trans hquiet) }
  unfold Machine.publish
  cases console with
  | none =>
      cases own with
      | none => exact hkept
      | some names =>
          exact { hkept with
            files := FileTree.hide_set_file hsame.files fun hother =>
              absurd rfl hother }
  | some colours =>
      have herrors := hkept.errors.record entry entry' colours
      cases own with
      | none => exact { hkept with errors := herrors, quiet := nofun }
      | some names =>
          exact { hkept with
            errors := herrors
            quiet := nofun
            files := FileTree.hide_set_file hsame.files fun hother =>
              absurd rfl hother }

theorem note (hsame : SameButRecords file left right) {note note' : Journal.Note}
    (hlevel : note.level = note'.level) :
    SameButRecords file (left.note note) (right.note note') := by
  have hjournal := hsame.journal
  unfold Machine.note
  cases hleft : left.journal with
  | none =>
      cases hright : right.journal with
      | none => exact hsame
      | some journal' => rw [hleft, hright] at hjournal; cases hjournal
  | some journal =>
      cases hright : right.journal with
      | none => rw [hleft, hright] at hjournal; cases hjournal
      | some journal' =>
          rw [hleft, hright, Option.map_some, Option.map_some] at hjournal
          have hclear : journal.clear = journal'.clear := Option.some.inj hjournal
          have hleast : journal.level = journal'.level := by
            change journal.clear.level = journal'.clear.level
            rw [hclear]
          have hadmits : journal.admits note.level =
              journal'.admits note'.level := by
            rw [Journal.admits, Journal.admits, Journal.leastLevel,
              Journal.leastLevel, hleast, hlevel]
          simp only [hadmits]
          split
          · exact hsame.publish hleft hright _ _
          · exact hsame

end SameButRecords

theorem steady_sameButRecords (file : Option (List String)) :
    Steady (SameButRecords file) fun note note' => note.level = note'.level where
  same _ := rfl
  note := fun hsame hlevel => hsame.note hlevel
  isFile := SameButRecords.isFile
  isDirectory := fun hsame path => by
    rw [← FileTree.isDirectory_hide (Machine.files _), hsame.files,
      FileTree.isDirectory_hide]
  contains := fun hsame path => by
    rw [← FileTree.contains_hide (Machine.files _), hsame.files,
      FileTree.contains_hide]
  openOutput := SameButRecords.openOutput
  closeOutput := SameButRecords.closeOutput
  write := SameButRecords.write
  writeLine := SameButRecords.writeLine

theorem seen_sameButRecords :
    Seen (SameButRecords none) fun note note' => note.level = note'.level where
  toSteady := steady_sameButRecords none
  files := fun left right hsame => by
    rw [← FileTree.hide_none left.files, hsame.files, FileTree.hide_none]
  print := SameButRecords.print

/-- Nothing has changed but what the journal has recorded. -/
structure Quiet (before after : Machine) : Prop where
  journalFile : after.journalFile = before.journalFile
  journalConsole : after.journalConsole = before.journalConsole
  files : ∀ names, before.journalFile ≠ some names →
    after.files.get? names = before.files.get? names
  shown : after.console.out = before.console.out
  errors : before.journalConsole = none → after.console.err = before.console.err

variable {first second third : Machine}

theorem Quiet.refl (machine : Machine) : machine.Quiet machine :=
  ⟨rfl, rfl, fun _ _ => rfl, rfl, fun _ => rfl⟩

theorem Quiet.trans (hfirst : first.Quiet second) (hsecond : second.Quiet third) :
    first.Quiet third where
  journalFile := hsecond.journalFile.trans hfirst.journalFile
  journalConsole := hsecond.journalConsole.trans hfirst.journalConsole
  files names hother :=
    (hsecond.files names (hfirst.journalFile ▸ hother)).trans
      (hfirst.files names hother)
  shown := hsecond.shown.trans hfirst.shown
  errors hsilent :=
    (hsecond.errors (hfirst.journalConsole.trans hsilent)).trans
      (hfirst.errors hsilent)

theorem quiet_publish {machine : Machine} {journal : Journal}
    (hjournal : machine.journal = some journal) (entry : Journal.Entry) :
    machine.Quiet (machine.publish journal entry) := by
  have hfile : machine.journalFile = journal.file := by
    rw [journalFile, hjournal]; rfl
  have hconsole : machine.journalConsole = journal.console := by
    rw [journalConsole, hjournal]; rfl
  have hshown (names : List String) (hother : journal.file ≠ some names)
      (tree : FileTree)
        (bytes : List UInt8) :
        (journal.file.elim tree fun target => tree.append target bytes).get? names =
          tree.get? names := by
    cases htarget : journal.file with
    | none => rfl
    | some target =>
        rw [htarget] at hother
        exact FileTree.get?_set_of_ne
          (fun hsame => hother (congrArg some hsame.symm)) _
  constructor
  · rw [hfile]
    unfold publish
    cases journal.console <;> cases hnone : journal.file <;> exact hnone
  · rw [hconsole]
    unfold publish
    cases hnone : journal.console <;> cases journal.file <;> exact hnone
  · intro names hother
    rw [hfile] at hother
    rw [← hshown names hother machine.files
      (Text.Utf8.encode (entry.line false ++ "\n"))]
    unfold publish
    cases journal.console <;> cases journal.file <;> rfl
  · unfold publish
    cases journal.console <;> cases journal.file <;> rfl
  · intro hsilent
    rw [hconsole] at hsilent
    unfold publish
    rw [hsilent]
    cases journal.file <;> rfl

theorem quiet_note (machine : Machine) (note : Journal.Note) :
    machine.Quiet (machine.note note) := by
  unfold Machine.note
  split
  · exact .refl machine
  · next journal hjournal =>
      split
      · exact quiet_publish hjournal _
      · exact .refl machine

end Machine

end PipeShell
