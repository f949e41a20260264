import PipeShell.Proofs.HistoryNumbers

namespace PipeShell

open Channel (Source Cursor Reading fileLines?)

namespace FileTree

variable {tree : FileTree} {path : String} {names target : List String}
  {content : List UInt8}

private theorem setIn_setIn (entries : List (List String × Node))
    (names : List String) (first second : Node) :
    setIn names second (setIn names first entries) = setIn names second entries := by
  induction entries with
  | nil => simp [setIn]
  | cons entry rest ih =>
      obtain ⟨key, old⟩ := entry
      by_cases hkey : key = names <;> simp [setIn, hkey, ih]

private theorem setIn_of_find? {entries : List (List String × Node)} {node : Node}
    (hfind : (entries.find? (·.1 = names)).map (·.2) = some node) :
    setIn names node entries = entries := by
  induction entries with
  | nil => simp at hfind
  | cons entry rest ih =>
      obtain ⟨key, old⟩ := entry
      by_cases hkey : key = names
      · have hold : old = node := by simpa [hkey] using hfind
        rw [setIn, if_pos hkey, hold]
      · rw [List.find?_cons_of_neg (by simpa using hkey)] at hfind
        rw [setIn, if_neg hkey, ih hfind]

theorem ne_nil_of_file (hfile : tree.get? target = some (.file content)) :
    target ≠ [] := by
  rintro rfl
  cases hfile

theorem content_of_file (hfile : tree.get? target = some (.file content)) :
    tree.content target = content := by
  rw [FileTree.content, hfile]

theorem get?_append_self (hfile : tree.get? target = some (.file content))
    (bytes : List UInt8) :
    (tree.append target bytes).get? target = some (.file (content ++ bytes)) := by
  rw [append, get?_set_self (ne_nil_of_file hfile), content_of_file hfile]

private theorem get?_append_of_ne (hother : names ≠ target) (bytes : List UInt8) :
    (tree.append target bytes).get? names = tree.get? names :=
  get?_set_of_ne hother _

theorem content_append_of_ne (hother : names ≠ target) (bytes : List UInt8) :
    (tree.append target bytes).content names = tree.content names := by
  rw [FileTree.content, FileTree.content, get?_append_of_ne hother]

private theorem append_append (hfile : tree.get? target = some (.file content))
    (first second : List UInt8) :
    (tree.append target first).append target second = tree.append target
    (first ++ second) := by
  have hgrown := content_of_file (get?_append_self hfile first)
  rw [append, hgrown, append, append, set, set, set, setIn_setIn,
    content_of_file hfile, List.append_assoc]

private theorem append_nil (hfile : tree.get? target = some (.file content)) :
    tree.append target [] = tree := by
  have hfind : (tree.entries.find? (·.1 = target)).map (·.2) =
      some (.file content) := by
    rwa [get?, if_neg (by simpa using ne_nil_of_file hfile)] at hfile
  rw [append, content_of_file hfile, List.append_nil, set, setIn_of_find? hfind]

theorem openForReading_eq_ok {path : String} :
    tree.openForReading path = .ok names ↔
      path ≠ "" ∧ ∃ content, tree.walk [] (Text.split '/' path) =
        .ok (names, .file content) := by
  unfold openForReading locate
  by_cases hpath : path = ""
  · simp [hpath]
  · rw [if_neg hpath]
    rcases tree.walk [] (Text.split '/' path) with
      fault | ⟨found, old | _⟩ <;> simp [hpath]

theorem openForReading_append (hfile : tree.get? target = some (.file content))
    (hopen : tree.openForReading path = .ok names) (bytes : List UInt8) :
    (tree.append target bytes).openForReading path = .ok names := by
  have hnode : tree.get? target ≠ some .directory := by
    rw [hfile]
    nofun
  obtain ⟨hpath, old, hwalk⟩ := openForReading_eq_ok.mp hopen
  refine openForReading_eq_ok.mpr ⟨hpath, ?_⟩
  rw [append, walk_set hnode hwalk]
  split <;> exact ⟨_, rfl⟩

end FileTree

namespace Text.Utf8.Decoder

variable {decoder next last : Decoder} {byte : UInt8} {bytes : List UInt8}

private theorem step_none (hstep : decoder.step byte = .ok (next, none)) :
    next.pending.length = decoder.pending.length + 1 := by
  obtain ⟨pending, position⟩ := decoder
  cases pending with
  | nil =>
      simp only [step] at hstep
      split at hstep <;> cases hstep
      rfl
  | cons first more =>
      simp only [step] at hstep
      split at hstep
      · split at hstep <;> cases hstep
        simp
      · cases hstep

private theorem feed_none (hfeed : decoder.feed bytes = .ok (last, [])) :
    last.pending.length = decoder.pending.length + bytes.length := by
  induction bytes generalizing decoder with
  | nil =>
      cases hfeed
      rfl
  | cons byte bytes ih =>
      obtain ⟨next, produced, more, hstep, hrest, hnone⟩ := feed_cons_ok hfeed
      obtain ⟨hproduced, hmore⟩ := List.append_eq_nil_iff.mp hnone.symm
      rw [Option.toList_eq_nil_iff.mp hproduced] at hstep
      rw [hmore] at hrest
      rw [ih hrest, step_none hstep, List.length_cons]
      omega

theorem eq_nil_of_text? (htext : decoder.text? bytes = some []) : bytes = [] := by
  rw [text?] at htext
  split at htext
  · cases htext
  · next hfeed =>
      split at htext
      · next hlast =>
          cases htext
          have hlength := feed_none hfeed
          rw [hlast, List.length_nil] at hlength
          exact List.eq_nil_of_length_eq_zero (by omega)
      · cases htext

end Text.Utf8.Decoder

namespace Channel

theorem unifyNewlines_eq_nil_iff {text : List Char} :
    unifyNewlines text = [] ↔ text = [] := by
  fun_cases unifyNewlines text <;> simp

private theorem eq_nil_of_fileLines? {content : List UInt8}
    (hlines : fileLines? content = some []) :
    content = [] := by
  obtain ⟨chars, hchars, hnone⟩ := Option.map_eq_some_iff.mp hlines
  rw [List.map_eq_nil_iff, linesOf_eq_nil_iff, unifyNewlines_eq_nil_iff] at hnone
  exact Text.Utf8.Decoder.eq_nil_of_text? (hnone ▸ hchars)

namespace Reading

variable {reading next filled rest : Reading} {content : List UInt8}
  {files : FileTree}

private theorem takePiece_offset {piece : List UInt8}
    (htake : reading.takePiece piece = .ok next) :
    next.offset = reading.offset + piece.length := by
  unfold takePiece at htake
  split at htake
  · cases htake
  · cases htake
    exact (accept_unchanged _ _).2.1

private theorem reachEnd_offset (hreach : reading.reachEnd = .ok next) :
    next.offset = reading.offset := by
  unfold reachEnd at hreach
  split at hreach
  · cases hreach
  · split at hreach <;> cases hreach <;> rfl

private theorem fill_offset {left : List UInt8}
    (hleft : content.drop reading.offset = left)
    (hoffset : reading.offset ≤ content.length)
    (hfill : reading.fill left = .ok filled) : filled.offset ≤ content.length := by
  fun_induction fill reading left with
  | case1 reading left hline =>
      cases hfill
      exact hoffset
  | case2 reading left hline hempty => exact reachEnd_offset hfill ▸ hoffset
  | case3 reading left hline hmore fault htake => cases hfill
  | case4 reading left hline hmore next htake ih =>
      subst hleft
      obtain ⟨-, hdrop⟩ := takePiece_ok htake
      refine ih hdrop ?_ hfill
      rw [takePiece_offset htake, List.length_take, List.length_drop]
      omega

private theorem deliver_offset {line : String}
    (hdeliver : reading.deliver = some (line, rest)) :
    rest.offset = reading.offset := by
  unfold deliver at hdeliver
  split at hdeliver <;> cases hdeliver <;> rfl

theorem next_offset {line : String}
    (hcontent : files.content reading.names = content)
    (hoffset : reading.offset ≤ content.length)
    (hnext : reading.next files = .ok (some (line, rest))) :
    rest.offset ≤ content.length := by
  rw [next_eq_map_deliver, hcontent] at hnext
  cases hfill : reading.fill (content.drop reading.offset) with
  | error fault =>
      rw [hfill] at hnext
      cases hnext
  | ok filled =>
      rw [hfill] at hnext
      have hdeliver : filled.deliver = some (line, rest) := Except.ok.inj hnext
      rw [deliver_offset hdeliver]
      exact fill_offset rfl hoffset hfill

theorem next_of_nil (hcontent : files.content reading.names = content)
    (hlines : reading.lines? content = some []) : reading.next files = .ok none := by
  have hspec := next_spec hcontent
  rw [hlines] at hspec
  rcases hnext : reading.next files with fault | _ | ⟨line, rest⟩
  · rw [hnext] at hspec
    cases hspec
  · rfl
  · rw [hnext] at hspec
    simpa using hspec.2.2.symm

theorem next_of_cons (hcontent : files.content reading.names = content)
    {line : String} {more : List String}
    (hlines : reading.lines? content = some (line :: more)) :
    ∃ rest, reading.next files = .ok (some (line, rest)) ∧
      rest.names = reading.names ∧
      rest.left content < reading.left content ∧
        rest.lines? content = some more := by
  have hspec := next_spec hcontent
  rw [hlines] at hspec
  rcases hnext : reading.next files with fault | _ | ⟨first, rest⟩
  · rw [hnext] at hspec
    cases hspec
  · rw [hnext] at hspec
    cases hspec
  · rw [hnext] at hspec
    obtain ⟨hnames, hleft, hmore⟩ := hspec
    obtain ⟨others, hrest, hcons⟩ := Option.map_eq_some_iff.mp hmore.symm
    cases hcons
    exact ⟨rest, rfl, hnames, hleft, hrest⟩

/-- A reading that has not gone beyond the end has something left when text is added
there. -/
theorem text?_append {chars : List Char} (hoffset : reading.offset ≤ content.length)
    (htext : reading.text? content = some chars) {text : String}
    (hsome : text ≠ "") :
    ∃ more, reading.text? (content ++ Text.Utf8.encode text) = some more ∧
      more ≠ [] := by
  obtain ⟨decoded, hdecoded, rfl⟩ := Option.map_eq_some_iff.mp htext
  have hgrown : reading.decoder.text?
      ((content ++ Text.Utf8.encode text).drop reading.offset) =
        some (decoded ++ text.toList) := by
    rw [List.drop_append_of_le_length hoffset]
    exact Text.Utf8.Decoder.text?_append_encode hdecoded text
  refine ⟨_, by rw [text?, hgrown, Option.map_some], ?_⟩
  have hchars : text.toList ≠ [] := by
    simpa using hsome
  simp [unifyNewlines_eq_nil_iff, hchars]

end Reading

end Channel

namespace FileTree

variable {tree : FileTree} {path : String} {paths target : List String}
  {grown : Prop}

theorem read?_eq_some {content : List UInt8} :
    tree.read? path = some content ↔ hasZero path = false ∧
      ∃ names, tree.openForReading path = .ok names ∧
        tree.content names = content := by
  rw [read?]
  by_cases hzero : hasZero path = true
  · simp [hzero]
  · rw [if_neg hzero]
    cases tree.openForReading path <;> simp [hzero, Except.toOption]

/-- When the files at the paths are copied to the end of the one at `target`, this
one has its own turn, and by then it is not empty: it is not when they start, or one
before it holds something. -/
def FedBack (tree : FileTree) (target : List String) (grown : Prop)
    (paths : List String) : Prop :=
  ∃ before path after, paths = before ++ path :: after ∧
    tree.openForReading path = .ok target ∧
    (grown ∨ ∃ earlier ∈ before, tree.read? earlier ≠ some [])

theorem fedBack_nil : ¬ tree.FedBack target grown [] := by
  rintro ⟨before, path, after, hpaths, -⟩
  simp at hpaths

theorem fedBack_cons :
    tree.FedBack target grown (path :: paths) ↔
      (tree.openForReading path = .ok target ∧ grown) ∨
        tree.FedBack target (grown ∨ tree.read? path ≠ some []) paths := by
  constructor
  · rintro ⟨before, own, after, hpaths, hopen, hwhy⟩
    cases before with
    | nil =>
        cases hpaths
        exact .inl ⟨hopen, hwhy.resolve_right (by simp)⟩
    | cons first before =>
        cases hpaths
        refine .inr ⟨before, own, after, rfl, hopen, ?_⟩
        rcases hwhy with hgrown | ⟨earlier, hearlier, hsome⟩
        · exact .inl (.inl hgrown)
        · rcases List.mem_cons.mp hearlier with rfl | hbefore
          · exact .inl (.inr hsome)
          · exact .inr ⟨earlier, hbefore, hsome⟩
  · rintro (⟨hopen, hgrown⟩ | ⟨before, own, after, rfl, hopen, hwhy⟩)
    · exact ⟨[], path, paths, rfl, hopen, .inl hgrown⟩
    · refine ⟨path :: before, own, after, rfl, hopen, ?_⟩
      rcases hwhy with (hgrown | hsome) | ⟨earlier, hearlier, hsome⟩
      · exact .inl hgrown
      · exact .inr ⟨path, List.mem_cons_self, hsome⟩
      · exact .inr ⟨earlier, List.mem_cons_of_mem _ hearlier, hsome⟩

end FileTree

variable {σ : Type}

/-- The octets of lines that are written, each with its end. -/
def lineOctets (lines : List String) : List UInt8 :=
  lines.flatMap fun line => Text.Utf8.encode (line ++ "\n")

private theorem lineOctets_append (first second : List String) :
    lineOctets (first ++ second) = lineOctets first ++ lineOctets second :=
  List.flatMap_append

private theorem lineOctets_eq_nil_iff {lines : List String} :
    lineOctets lines = [] ↔ lines = [] := by
  have hsome (line : String) : Text.Utf8.encode (line ++ "\n") ≠ [] := by
    intro hnone
    have htext := Text.Utf8.Decoder.text?_append_encode
      (rfl : Text.Utf8.Decoder.start.text? [] = _)
      (line ++ "\n")
    rw [hnone] at htext
    simp [Text.Utf8.Decoder.text?_nil, Text.Utf8.Decoder.start] at htext
  cases lines <;> simp [lineOctets, hsome]

namespace Session

def extended (session : Session σ) (target : List String) (bytes : List UInt8) :
    Session σ :=
  { session with
    machine := { session.machine with
      files := session.machine.files.append target bytes } }

/-- What is written goes to the end of a file, which has this content. -/
structure AppendsTo (session : Session σ) (target : List String)
    (content : List UInt8) : Prop where
  live : session.cancelled = false
  output : ∃ handle path, session.out = .file handle ∧
    session.machine.outputs[handle]? = some ⟨path, target, true, 0, false⟩
  node : session.machine.files.get? target = some (.file content)

variable {session : Session σ} {target : List String} {content : List UInt8}

namespace AppendsTo

theorem extended (happends : session.AppendsTo target content) (bytes : List UInt8) :
    (session.extended target bytes).AppendsTo target (content ++ bytes) :=
  ⟨happends.live, happends.output, FileTree.get?_append_self happends.node bytes⟩

theorem extended_extended (happends : session.AppendsTo target content)
    (first second : List UInt8) :
    (session.extended target first).extended target second =
      session.extended target (first ++ second) := by
  simp only [Session.extended, FileTree.append_append happends.node]

theorem extended_nil (happends : session.AppendsTo target content) :
    session.extended target [] = session := by
  rw [Session.extended, FileTree.append_nil happends.node]

private theorem outcome_writeLine (happends : session.AppendsTo target content)
    (line : String) :
    Act.outcome (Act.writeLine line) session =
      (.ok (), session.extended target (Text.Utf8.encode (line ++ "\n"))) := by
  obtain ⟨handle, path, hout, houtput⟩ := happends.output
  have hwritten : session.out.writeLine session.machine line =
      .ok (.file handle, (session.extended target
        (Text.Utf8.encode (line ++ "\n"))).machine) := by
    rw [hout, Channel.Writer.writeLine, Channel.Writer.write, Machine.writeOutput,
      houtput]
    · rfl
    · rintro buffer ⟨⟩
  rw [Act.outcome_writeLine line happends.live, hwritten, ← hout]
  rfl

end AppendsTo

end Session

namespace Act

open Session (AppendsTo)

variable {session : Session σ} {target names : List String}
  {old content : List UInt8}
  {reading rest : Reading} {line : String}

/-- Writes the lines that a cursor has left, as they are read. -/
def copy (steps : Nat) (cursor : Cursor) : Act σ Unit :=
  foldLines (fun _ line => writeLine line) steps () cursor

theorem outcome_next (cursor : Cursor) (session : Session σ) :
    outcome (next cursor) session =
      (cursor.next session.cancelled session.machine.files, session) := by
  change outcome (lift (cursor.next session.cancelled session.machine.files))
    session = _
  rw [outcome_lift]

theorem outcome_copy_end (hlive : session.cancelled = false)
    (hnext : reading.next session.machine.files = .ok none) (steps : Nat) :
    outcome (copy (steps + 1) (.opened reading)) session = (.ok (), session) := by
  rw [copy, foldLines, outcome_bind, outcome_next, hlive, Cursor.next,
    Cursor.nextOf, hnext]
  rfl

theorem outcome_copy_line (happends : session.AppendsTo target content)
    (hnext : reading.next session.machine.files = .ok (some (line, rest)))
    (steps : Nat) : outcome (copy (steps + 1) (.opened reading)) session =
      outcome (copy steps (.opened rest))
        (session.extended target (Text.Utf8.encode (line ++ "\n"))) := by
  rw [copy, foldLines, outcome_bind, outcome_next, happends.live, Cursor.next,
    Cursor.nextOf, hnext]
  change outcome (writeLine line >>= fun _ => copy steps (.opened rest)) session = _
  rw [outcome_bind, happends.outcome_writeLine]
  rfl

/-- Another file is copied line by line, up to its end. -/
theorem outcome_copy_other (happends : session.AppendsTo target old)
    (hother : reading.names ≠ target)
    (hcontent : session.machine.files.content reading.names = content)
    {lines : List String} (hlines : reading.lines? content = some lines)
    {steps : Nat} (henough : reading.left content < steps) :
    outcome (copy steps (.opened reading)) session =
      (.ok (), session.extended target (lineOctets lines)) := by
  induction steps generalizing session old reading lines with
  | zero => exact absurd henough (Nat.not_lt_zero _)
  | succ steps ih =>
      cases lines with
      | nil =>
          rw [outcome_copy_end happends.live (Reading.next_of_nil hcontent hlines),
            lineOctets, List.flatMap_nil, happends.extended_nil]
      | cons line more =>
          obtain ⟨rest, hnext, hnames, hleft, hmore⟩ :=
            Reading.next_of_cons hcontent hlines
          have hkept : (session.extended target
              (Text.Utf8.encode (line ++ "\n"))).machine.files.content rest.names =
                content := by
            rw [hnames, ← hcontent]
            exact FileTree.content_append_of_ne hother _
          rw [outcome_copy_line happends hnext,
            ih (happends.extended _) (hnames ▸ hother) hkept hmore (by omega),
            happends.extended_extended]
          rfl

/-- The file itself has always one more line, however many steps are made. -/
theorem outcome_copy_self (happends : session.AppendsTo target content)
    (hnames : reading.names = target) (hoffset : reading.offset ≤ content.length)
    {chars : List Char} (htext : reading.text? content = some chars)
    (hsome : chars ≠ []) (steps : Nat) :
    (outcome (copy steps (.opened reading)) session).1 = .error .endless := by
  induction steps generalizing session content reading chars with
  | zero => rfl
  | succ steps ih =>
      have hcontent : session.machine.files.content reading.names = content := by
        rw [hnames]
        exact FileTree.content_of_file happends.node
      obtain ⟨first, more, hlines⟩ :
        ∃ first more, Channel.linesOf chars = first :: more :=
        List.exists_cons_of_ne_nil (mt Channel.linesOf_eq_nil_iff.mp hsome)
      have hread : reading.lines? content =
          some (String.ofList first :: more.map String.ofList) := by
        rw [Reading.lines?, htext, Option.map_some, hlines, List.map_cons]
      obtain ⟨rest, hnext, hsame, -, hmore⟩ := Reading.next_of_cons hcontent hread
      obtain ⟨left, hleft, -⟩ := Option.map_eq_some_iff.mp hmore
      have hbehind := Reading.next_offset hcontent hoffset hnext
      -- The line that has just been delivered stands at the end of the file by now.
      obtain ⟨grown, hgrown, hagain⟩ := Reading.text?_append hbehind hleft
        (by simp : String.ofList first ++ "\n" ≠ "")
      rw [outcome_copy_line happends hnext]
      refine ih (happends.extended _) (hsame.trans hnames) ?_ hgrown hagain
      rw [List.length_append]
      omega

private theorem outcome_eachLine_file {path : String}
    (hlive : session.cancelled = false) (hzero : FileTree.hasZero path = false)
    (hopen : session.machine.files.openForReading path = .ok names) :
    outcome (eachLine writeLine (.file path)) session =
      outcome (copy ((session.machine.files.content names).length + 2)
        (.opened (Reading.start names))) session := by
  have hbound : Cursor.bound session.machine.files (.unopened path) =
      (session.machine.files.content names).length + 2 := by
    simp only [Cursor.bound, hopen]
  have hfirst : Cursor.next session.cancelled session.machine.files
      (.unopened path) =
        Cursor.next session.cancelled session.machine.files
          (.opened (Reading.start names)) := by
    simp only [Cursor.next, hlive, Bool.false_eq_true, if_false, hzero, hopen]
  change outcome (copy (Cursor.bound session.machine.files (.unopened path))
    (.unopened path))
    session = _
  rw [hbound, copy, foldLines, outcome_bind, outcome_next, hfirst, ← outcome_next,
    ← outcome_bind]
  rfl

private theorem outcome_fileSource {command path : String} {context : Context}
    (hzero : FileTree.hasZero (context.resolve path) = false)
    (hopen : session.machine.files.openForReading (context.resolve path) =
      .ok names) :
    outcome (Builtin.fileSource command context path) session =
      (.ok (some (.file (context.resolve path))), session) := by
  obtain ⟨hpath, content, hwalk⟩ := FileTree.openForReading_eq_ok.mp hopen
  have hlocate : session.machine.files.locate (context.resolve path) =
      .ok (names, .file content) := by
    rw [FileTree.locate, if_neg hpath, hwalk]
  have hcontains : session.machine.files.contains (context.resolve path) = true := by
    rw [FileTree.contains, hzero, hlocate]
    rfl
  have hfile : session.machine.files.isDirectory (context.resolve path) = false := by
    rw [FileTree.isDirectory, hzero, hlocate]
    rfl
  rw [Builtin.fileSource, outcome_bind, outcome_files]
  simp only [andThen, hcontains, hfile]
  rfl

private theorem text?_start_of_grown {done lines : List String}
    (hbase : fileLines? old = some lines) (hsome : old ++ lineOctets done ≠ []) :
    ∃ chars, (Reading.start target).text? (old ++ lineOctets done) = some chars ∧
      chars ≠ [] := by
  obtain ⟨chars, hchars, -⟩ := Option.map_eq_some_iff.mp hbase
  have hgrown := Channel.Writing.text?_append_octets hchars (done.map .line)
  rw [List.flatMap_map] at hgrown
  change Text.Utf8.Decoder.start.text? (old ++ lineOctets done) = _ at hgrown
  refine ⟨_, congrArg (Option.map _) hgrown, ?_⟩
  intro hnone
  rw [List.append_eq_nil_iff, Channel.unifyNewlines_eq_nil_iff,
    List.append_eq_nil_iff] at hnone
  rw [hnone.2.2] at hgrown
  exact hsome (Text.Utf8.Decoder.eq_nil_of_text? hgrown)

section Files

variable {start : Session σ} {context : Context} {path : String}
  {done lines : List String}
  (hstart : start.AppendsTo target old)

include hstart

private theorem outcome_copyFiles_cons
    (hzero : FileTree.hasZero (context.resolve path) = false)
    (hopen : start.machine.files.openForReading (context.resolve path) = .ok names)
    (paths : List String) :
    outcome (Builtin.copyFiles context (path :: paths))
      (start.extended target (lineOctets done)) =
      andThen (fun _ => Builtin.copyFiles context paths)
        (outcome (copy
          (((start.extended target (lineOctets done)).machine.files.content
            names).length + 2) (.opened (Reading.start names)))
              (start.extended target (lineOctets done))) := by
  have hstill : (start.extended target
      (lineOctets done)).machine.files.openForReading
        (context.resolve path) = .ok names :=
        FileTree.openForReading_append hstart.node hopen _
  have hlive : (start.extended target (lineOctets done)).cancelled = false :=
    hstart.live
  rw [Builtin.copyFiles, outcome_bind, outcome_fileSource hzero hstill]
  dsimp only [andThen]
  rw [outcome_bind, outcome_eachLine_file hlive hzero hstill]
  rfl

private theorem outcome_copy_start_self (hsome : old ++ lineOctets done ≠ [])
    (hlines : fileLines? old = some lines) (steps : Nat) :
    (outcome (copy steps (.opened (Reading.start target)))
      (start.extended target (lineOctets done))).1 = .error .endless := by
  obtain ⟨chars, htext, hchars⟩ := text?_start_of_grown hlines hsome
  exact outcome_copy_self (hstart.extended _) rfl (Nat.zero_le _) htext hchars steps

private theorem outcome_copy_start_empty (hnone : old ++ lineOctets done = [])
    (steps : Nat) :
    outcome (copy (steps + 1) (.opened (Reading.start target)))
        (start.extended target (lineOctets done)) =
      (.ok (), start.extended target (lineOctets done)) := by
  have happends := hstart.extended (lineOctets done)
  have hcontent := FileTree.content_of_file happends.node
  rw [hnone] at hcontent
  exact outcome_copy_end happends.live (Reading.next_of_nil hcontent rfl) steps

private theorem outcome_copy_start_other {content : List UInt8}
    (hother : names ≠ target)
    (hcontent : start.machine.files.content names = content)
    (hlines : fileLines? content = some lines) :
    outcome (copy (((start.extended target (lineOctets done)).machine.files.content
      names).length + 2)
        (.opened (Reading.start names))) (start.extended target (lineOctets done)) =
      (.ok (), start.extended target (lineOctets (done ++ lines))) := by
  have hkept : (start.extended target (lineOctets done)).machine.files.content
      names = content :=
    (FileTree.content_append_of_ne hother _).trans hcontent
  have hread : (Reading.start names).lines? content = some lines := by
    rw [Reading.lines?_start, hlines]
  have henough : (Reading.start names).left content < content.length + 2 := by
    rw [Reading.left_start]
    omega
  rw [hkept, outcome_copy_other (hstart.extended _) hother hkept hread henough,
    hstart.extended_extended, lineOctets_append]

theorem outcome_copyFiles {held : String → List String} (paths : List String)
    (hheld : ∀ path ∈ paths, (start.machine.files.read? (context.resolve path)).bind
      fileLines? =
      some (held path)) :
    let fed := start.machine.files.FedBack target (old ++ lineOctets done ≠ [])
      (paths.map context.resolve)
    let result := outcome (Builtin.copyFiles context paths)
      (start.extended target (lineOctets done))
    (fed → result.1 = .error .endless) ∧
      (¬ fed → result =
        (.ok .success, start.extended target
          (lineOctets (done ++ paths.flatMap held)))) := by
  induction paths generalizing done with
  | nil =>
      refine ⟨fun hfed => absurd hfed FileTree.fedBack_nil, fun _ => ?_⟩
      rw [List.flatMap_nil, List.append_nil]
      rfl
  | cons path rest ih =>
      obtain ⟨hfirst, hrest⟩ := List.forall_mem_cons.mp hheld
      obtain ⟨content, hread, hlines⟩ := Option.bind_eq_some_iff.mp hfirst
      obtain ⟨hzero, names, hopen, hcontent⟩ := FileTree.read?_eq_some.mp hread
      dsimp only
      rw [List.map_cons, List.flatMap_cons, FileTree.fedBack_cons,
        outcome_copyFiles_cons hstart hzero hopen, hopen, hread]
      by_cases hnames : names = target
      · subst hnames
        rw [FileTree.content_of_file hstart.node] at hcontent
        subst hcontent
        by_cases hnone : old ++ lineOctets done = []
        · have hold : old = [] := (List.append_eq_nil_iff.mp hnone).1
          have hempty : held path = [] := by
            rw [hold] at hlines
            exact (Option.some.inj hlines).symm
          have hsame : (old ++ lineOctets done ≠ [] ∨ some old ≠ some []) =
              (old ++ lineOctets done ≠ []) := by simp [hold]
          rw [outcome_copy_start_empty hstart hnone, hempty, or_iff_right fun h =>
            h.2 hnone, hsame]
          exact @ih done hrest
        · have hendless := outcome_copy_start_self hstart hnone hlines
            (((start.extended names (lineOctets done)).machine.files.content
              names).length + 2)
          refine ⟨fun _ => ?_, fun hnot => absurd (.inl ⟨rfl, hnone⟩) hnot⟩
          rcases hcopy : outcome (copy _ (.opened (Reading.start names))) _ with
            ⟨result, after⟩
          rw [hcopy] at hendless
          cases hendless
          rfl
      · have hgrown : (old ++ lineOctets done ≠ [] ∨ some content ≠ some []) =
            (old ++ lineOctets (done ++ held path) ≠ []) := by
          have hempty : content = [] ↔ held path = [] := by
            constructor
            · rintro rfl
              exact (Option.some.inj hlines).symm
            · intro hempty
              exact Channel.eq_nil_of_fileLines? (hempty ▸ hlines)
          simp only [ne_eq, Option.some.injEq, hempty, List.append_eq_nil_iff,
            lineOctets_eq_nil_iff, ← Classical.not_and_iff_not_or_not, and_assoc]
        rw [outcome_copy_start_other hstart hnames hcontent hlines, hgrown,
          ← List.append_assoc, or_iff_right fun h => hnames (Except.ok.inj h.1)]
        exact @ih (done ++ held path) hrest

end Files

end Act

end PipeShell
