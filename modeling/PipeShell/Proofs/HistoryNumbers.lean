import PipeShell.Proofs.Directories
import PipeShell.Proofs.Lines
import PipeShell.Proofs.TokenizerSteps
import PipeShell.Proofs.WrittenLines

namespace PipeShell

namespace Number

theorem isAsciiDigit_of_mem {number : Nat} {c : Char}
    (hc : c ∈ Nat.toDigits 10 number) :
    isAsciiDigit c = true := by
  have hdigit := Nat.isDigit_of_mem_toDigits (by decide) (by decide) hc
  simpa [isAsciiDigit, Char.isDigit, Char.le_def] using hdigit

private theorem splitSign_toDigits (number : Nat) :
    splitSign (Nat.toDigits 10 number) = (false, Nat.toDigits 10 number) := by
  have hdigit (c : Char) (hc : c ∈ Nat.toDigits 10 number) := isAsciiDigit_of_mem hc
  cases hdigits : Nat.toDigits 10 number with
  | nil => rfl
  | cons c rest =>
      rw [hdigits] at hdigit
      unfold splitSign
      split
      · next heq =>
          cases heq
          exact absurd (hdigit '+' List.mem_cons_self) (by decide)
      · next heq =>
          cases heq
          exact absurd (hdigit '-' List.mem_cons_self) (by decide)
      · rfl

private theorem readInteger_toDigits {number : Nat}
    (hlength : (Nat.toDigits 10 number).length ≤ maxDigits) :
    readInteger (Nat.toDigits 10 number) = .ok number := by
  have hall : (Nat.toDigits 10 number).all isAsciiDigit = true :=
    List.all_eq_true.mpr fun c hc => isAsciiDigit_of_mem hc
  have hsome : (Nat.toDigits 10 number).isEmpty = false :=
    List.isEmpty_eq_false_iff.mpr Nat.toDigits_ne_nil
  have hvalue : natOfDigits (Nat.toDigits 10 number) = number :=
    Nat.ofDigitChars_ten_toDigits
  simp only [readInteger, splitSign_toDigits, hall, hsome, Bool.not_true,
    Bool.or_self]
  rw [if_neg (by simp), if_neg (Nat.not_lt.mpr hlength), hvalue]
  rfl

end Number

namespace Terminal

/-- The line that deletes the entry with a number. -/
def deletion (number : Nat) : String := "history -d " ++ toString number

theorem toList_deletion (number : Nat) :
    (deletion number).toList = "history -d ".toList ++ Nat.toDigits 10 number := by
  rw [deletion, String.toList_append, Nat.toString_eq_repr, Nat.toList_repr]

theorem ne_of_mem_toDigits {number : Nat} {c other : Char}
    (hc : c ∈ Nat.toDigits 10 number) (hother : Number.isAsciiDigit other = false) :
    c ≠ other := by
  rintro rfl
  exact absurd (Number.isAsciiDigit_of_mem hc) (by simp [hother])

private theorem plain_toDigits (number position : Nat) :
    Token.plain none position (Nat.toDigits 10 number) =
      .ok [⟨.word, toString number, ⟨position, (Nat.toDigits 10 number).length⟩,
        false⟩] := by
  have hordinary : ∀ c ∈ Nat.toDigits 10 number, c ∉ Token.marks := by
    intro c hc hmark
    have hall : (Token.marks.all fun c => !Number.isAsciiDigit c) = true := by decide
    have hdigit : Number.isAsciiDigit c = false := by
      simpa using List.all_eq_true.mp hall c hmark
    exact ne_of_mem_toDigits hc hdigit rfl
  have hdashes : Nat.toDigits 10 number ≠ ['-', '-'] := by
    intro heq
    have hmem : '-' ∈ Nat.toDigits 10 number := by simp [heq]
    exact ne_of_mem_toDigits hmem (by decide) rfl
  have hword := Token.plain_word hordinary Nat.toDigits_ne_nil position
    (fun c hc => absurd hc (by simp) : ∀ c ∈ ([] : List Char).head?,
      c ∈ [' ', '|', '<', '>'])
  rw [List.append_nil, ← Nat.toString_eq_ofList_toDigits, if_neg hdashes] at hword
  exact hword

private theorem tokenize_deletion (number : Nat) :
    Token.tokenize (deletion number) =
      .ok [⟨.word, "history", ⟨0, 7⟩, false⟩, ⟨.word, "-d", ⟨8, 2⟩, false⟩,
        ⟨.word, toString number, ⟨11, (Nat.toDigits 10 number).length⟩, false⟩] := by
  have hfree : '\t' ∉ (deletion number).toList := by
    rw [toList_deletion]
    intro htab
    rcases List.mem_append.mp htab with hfront | hdigits
    · exact absurd hfront (by decide)
    · exact ne_of_mem_toDigits hdigits (by decide) rfl
  have hsplit : (deletion number).toList =
      "history".toList ++ ' ' :: ("-d".toList ++ ' ' :: Nat.toDigits 10 number) :=
    toList_deletion number
  rw [Token.tokenize, Token.tokenizeChars_of_tabFree hfree, hsplit,
    Token.plain_word (Token.unmarked_of_all rfl) (by decide) 0 (by simp),
    Token.plain_space, Token.plain_word (Token.unmarked_of_all rfl) (by decide) _
      (by simp), Token.plain_space,
    plain_toDigits]
  rfl

private theorem parseTokens_option {value : Token}
    (hvalue : Pipeline.isOptionValue value = true) :
    Pipeline.parseTokens
        [⟨.word, "history", ⟨0, 7⟩, false⟩, ⟨.word, "-d", ⟨8, 2⟩, false⟩, value] =
      .ok (some [⟨"history", [], [.withNext "d" false value 0], ⟨none, none⟩⟩]) := by
  have hkind : value.kind = .word := by
    simp only [Pipeline.isOptionValue, Bool.and_eq_true, decide_eq_true_eq] at hvalue
    exact hvalue.1
  have htaken : Pipeline.valueFrom (some value) = some value := by
    rw [Pipeline.valueFrom, Option.filter_some, if_pos hvalue]
  have hshape : Pipeline.Shape.of "-d" = .short ['d'] := by decide
  simp only [Pipeline.parseTokens, Pipeline.segments, hkind]
  simp [Pipeline.parseSegments, Pipeline.parseInvocation, Pipeline.Draft.scan,
    Pipeline.Draft.addWord, Pipeline.Draft.empty, Pipeline.Draft.finish, hshape,
    Pipeline.shortOptions, Text.cutChars, htaken, Except.map,
    Pipeline.Draft.addOptions, Pipeline.shortName]

def deletionInvocation (number : Nat) : Invocation :=
  { name := "history"
    arguments := []
    options := [⟨"d", false, some (toString number), true, false, true, 0⟩]
    redirections := ⟨none, none⟩ }

private theorem parse_deletion (number : Nat) :
    Pipeline.parse (deletion number) = .ok (some [deletionInvocation number]) := by
  have hhead : (Nat.toDigits 10 number).head? ≠ some '-' := fun hdash =>
    ne_of_mem_toDigits (List.mem_of_head? hdash) (by decide) rfl
  rw [Pipeline.parse, tokenize_deletion]
  dsimp only
  rw [parseTokens_option (by simp [Pipeline.isOptionValue, hhead])]
  rfl

def deleteOption : OptionSchema :=
  { long := "delete"
    short := some 'd'
    description := "Delete entry at specified position"
    kind := .int
    slot := "delete"
    default := .int (-1) }

def historySchema : CommandSchema :=
  { name := "history"
    description := "Display or manage command history"
    options :=
      [ { long := "clear"
          short := some 'c'
          description := "Clear all history"
          kind := .bool
          slot := "clear"
          default := .bool false },
        deleteOption,
        { long := "number"
          short := some 'n'
          description := "Display only last N entries"
          kind := .int
          slot := "number"
          default := .int (-1) },
        { long := "reverse"
          short := some 'r'
          description := "Display history in reverse order"
          kind := .bool
          slot := "reverse"
          default := .bool false } ]
    typeName := "HistoryCommand"
    factory := .itself
    program := .builtin .history
    hook := .none }

/-- The command, with a number for the entry to delete; no entry has the number
`-1`. -/
def historyCommand (delete : Int) : BoundCommand :=
  { command :=
      { typeName := "HistoryCommand"
        name := "history"
        values := [("clear", .bool false), ("delete", .int delete),
          ("number", .int (-1)), ("reverse", .bool false)]
        program := .builtin .history
        hook := .none }
    schema := historySchema
    arguments := []
    redirections := ⟨none, none⟩ }

private theorem bindTo_history (parsers : Parsers) :
    ∃ note, Binding.bindTo parsers ⟨"history", [], [], ⟨none, none⟩⟩ historySchema =
      .ok (historyCommand (-1), note) :=
  ⟨_, rfl⟩

private theorem bindTo_deletion (parsers : Parsers) {number : Nat}
    (hdigits : (Nat.toDigits 10 number).length ≤ Number.maxDigits) :
    ∃ note, Binding.bindTo parsers (deletionInvocation number) historySchema =
      .ok (historyCommand number, note) := by
  have hconvert : Conversion.toInt (toString number) = .ok (.int number) := by
    rw [Conversion.toInt, Nat.toString_eq_repr, Nat.toList_repr,
      Number.readInteger_toDigits hdigits]
  have hfound : Binding.findOption historySchema
      ⟨"d", false, some (toString number), true, false, true, 0⟩ =
        some deleteOption := rfl
  have hflag : deleteOption.isFlag = false := rfl
  have hvalue : Conversion.convert parsers deleteOption false (toString number) =
      .ok (.int number) := hconvert
  have happlied : Binding.applyAll parsers (deletionInvocation number) historySchema
      ⟨(historyCommand (-1)).command, [], []⟩ (deletionInvocation number).options =
        .ok ⟨(historyCommand number).command, ["delete"], []⟩ := by
    simp only [deletionInvocation, Binding.applyAll, Binding.apply, hfound, hflag,
      Binding.applyValue, Bool.false_eq_true, if_false, Bool.not_true,
      Option.getD_some, hvalue]
    rfl
  have hnew : historySchema.newInstance = .ok (historyCommand (-1)).command := rfl
  refine ⟨Binding.boundNote historySchema
    ⟨(historyCommand number).command, ["delete"], []⟩ [], ?_⟩
  rw [Binding.bindTo, hnew]
  dsimp only
  rw [happlied]
  rfl

open Act Execution
open Channel (Source Writing)

def Holding (memory : Memory) (registry : Registry) (session : Session Memory) :
    Prop :=
  session.owner = memory ∧ session.registry = registry

theorem unreported_holding (memory : Memory) (registry : Registry) :
    Unreported (Holding memory registry) :=
  ⟨fun _ _ hbefore => hbefore, fun _ _ _ hbefore _ => hbefore⟩

private theorem stable_holding (memory : Memory) (registry : Registry) :
    Session.Stable (Holding memory registry) := by
  intro before after hbefore hwrote
  exact ⟨hwrote.owner.trans hbefore.1,
    (congrArg Session.Frame.registry hwrote.frame).trans hbefore.2⟩

def contextIn (home : String) (input : Source) (session : Session Memory) :
    Context :=
  ⟨input, [], session.directory, home, session.previous, session.owner.history, true⟩

theorem outcome_runCommand_history (home : String) (input : Source) (delete : Int)
    (session : Session Memory) :
    outcome (runCommand owner (commands owner) home (historyCommand delete) input)
      session =
      orElse (recover (historyCommand delete))
        (outcome (Builtin.runHistory owner (contextIn home input session)
          ⟨false, delete, -1, false⟩) session) := by
  have hprogram : (historyCommand delete).command.program = .builtin .history := rfl
  exact outcome_runCommand_builtin owner home input hprogram rfl

private theorem outcome_writeLines {σ : Type} {lines : List String}
    {session : Session σ} (hlive : session.cancelled = false) {out : Channel.Writer}
    {machine : Machine} (hwritten : Writing.runAll (lines.map .line) session.out
      session.machine = .ok (out, machine)) :
    outcome (writeLines lines) session =
      (.ok (), { session with out, machine }) := by
  induction lines generalizing session with
  | nil =>
      cases hwritten
      rfl
  | cons line rest ih =>
      rw [writeLines, outcome_bind, outcome_writeLine line hlive]
      rw [List.map_cons, Writing.runAll, Writing.run] at hwritten
      rcases hline : session.out.writeLine session.machine line with
        fault | ⟨between, after⟩
      · rw [hline] at hwritten
        cases hwritten
      · rw [hline] at hwritten
        exact ih hlive hwritten

variable {memory : Memory} {registry : Registry}

private theorem keeps_runHistory_list (context : Context) :
    Keeps (Holding memory registry) anyhow
      (Builtin.runHistory owner context ⟨false, -1, -1, false⟩) := by
  have hlines (lines : List String) :
      Keeps (Holding memory registry) anyhow (writeLines lines) :=
    Ensures.imp_faulty (keeps_writeLines (stable_holding memory registry)
      lines : Keeps _ context.Ends _)
      fun _ _ hafter => ⟨hafter.1, trivial⟩
  exact (hlines _).bind fun _ => keeps_pure _

private theorem deleteEntry_of_length_lt {position : Int}
    (hlength : memory.history.length < position) :
    memory.deleteEntry position = (false, memory) := by
  rw [Memory.deleteEntry, if_neg (by simp; omega)]

/-- Where a command of the history leaves the session, whatever it comes to. -/
def Left (memory : Memory) (registry : Registry)
    (ended : Except Fault ExitCode × Session Memory) :
    Prop :=
  Ended (fun _ => Holding memory registry)
    (fun fault session => Holding memory registry session ∧
      anyhow fault session) ended

theorem Left.holding {ended : Except Fault ExitCode × Session Memory}
    (hleft : Left memory registry ended) : Holding memory registry ended.2 :=
  Ended.after hleft

private theorem left_runHistory_delete {number : Nat} (hnumber : 1 ≤ number)
    (home : String) (input : Source) {session : Session Memory}
    (hsession : Holding memory registry session) :
    Left (memory.deleteEntry number).2 registry
      (outcome (Builtin.runHistory owner (contextIn home input session)
        ⟨false, number, -1, false⟩) session) := by
  have hhistory : (contextIn home input session).history = memory.history :=
    congrArg Memory.history hsession.1
  unfold Builtin.runHistory
  rw [if_neg (by simp), if_pos (by simp; omega), if_neg (by simp [owner]), hhistory]
  split
  · next hlength =>
      rw [deleteEntry_of_length_lt hlength]
      have hfailing : Keeps (Holding memory registry) anyhow
          (Builtin.failing ("history: position " ++ Json.intText number ++
            " out of range")) :=
        (keeps_errorOf (unreported_holding memory registry) _).bind fun _ =>
          keeps_pure _
      exact hfailing.ended session hsession
  · exact ⟨congrArg (fun memory => (Memory.deleteEntry memory number).2) hsession.1,
      hsession.2⟩

theorem left_line (terminal : Terminal) {text : String} {streams : Streams}
    {delete : Int} {invocation : Invocation} {note : Journal.Note}
    (hlive : streams.cancelled = false)
    (hparse : Pipeline.parse text = .ok (some [invocation]))
    (hbind : terminal.registry.bindCommand terminal.parsers invocation =
      .ok (historyCommand delete, note))
    (hcommand : ∀ session, Holding terminal.memory terminal.registry session →
      Left memory registry (outcome (Builtin.runHistory owner
        (contextIn terminal.home streams.input session) ⟨false, delete, -1, false⟩)
          session)) :
    Left memory registry (orElse reportFailure
      (outcome (interpret owner terminal.parsers terminal.home streams.input text)
        (terminal.sessionFor streams))) := by
  have hunreported := unreported_holding memory registry
  apply ended_single owner (commands owner) terminal.home streams.input hunreported
    hlive hparse hbind
    rfl
  intro notes
  rw [outcome_runCommand_history]
  apply Ended.orElse (hcommand ((terminal.sessionFor streams).noted notes)
    ⟨rfl, rfl⟩)
  intro fault
  exact (keeps_recover hunreported _ fault).imp_pre fun _ hbefore => hbefore.1

section History

variable {terminal : Terminal} {limit : Int}

/-- The memory with a line recorded, and the oldest entries beyond the limit gone. -/
def Memory.recording (memory : Memory) (limit : Int) (line : String) : Memory :=
  { memory with
    history := (memory.history ++ [line]).drop
      (memory.history.length + 1 - limit).toNat }

private theorem addLine_cases (memory : Memory) (ignoreDuplicates : Bool)
    {line : String} (hblank : Text.allBlank line = false) :
    memory.addLine ignoreDuplicates line = memory ∧
      memory.history.getLast? = some line ∨
      memory.addLine ignoreDuplicates line =
        { memory with history := memory.history ++ [line] } := by
  unfold Memory.addLine
  rw [if_neg (by simp [hblank])]
  split
  · next hrepeated =>
      simp only [Bool.and_eq_true, decide_eq_true_eq] at hrepeated
      exact .inl ⟨rfl, hrepeated.2⟩
  · exact .inr rfl

theorem addHistory_cases (hlimit : terminal.config.get .maxHistory = .int limit)
    {line : String} (hblank : Text.allBlank line = false) :
    terminal.addHistory line = (.ok (), terminal) ∧
        terminal.memory.history.getLast? = some line ∨
      terminal.addHistory line =
        (.ok (), { terminal with
          memory := terminal.memory.recording limit line }) := by
  unfold addHistory
  rcases addLine_cases terminal.memory (terminal.config.get .ignoreDuplicates).truthy
    hblank with
    ⟨hsame, hlast⟩ | hadded
  · left
    simp [hsame, hlast]
  · right
    simp [hadded, hlimit, Memory.trim, overflow, Except.map, Memory.recording]

theorem getLast?_recording (memory : Memory) (limit : Int) (line : String) :
    (memory.recording limit line).history = [] ∨
      (memory.recording limit line).history.getLast? = some line := by
  dsimp only [Memory.recording]
  by_cases hroom : (memory.history.length + 1 - limit).toNat ≤ memory.history.length
  · right
    rw [List.drop_append_of_le_length hroom, List.getLast?_concat]
  · left
    rw [List.drop_eq_nil_iff, List.length_append, List.length_singleton]
    omega

private theorem history_deleteEntry (memory : Memory) {number : Nat}
    (hnumber : 1 ≤ number) :
    (memory.deleteEntry number).2.history = memory.history.eraseIdx
    (number - 1) := by
  unfold Memory.deleteEntry
  split
  · have hindex : ((number : Int) - 1).toNat = number - 1 := by omega
    rw [hindex]
  · next hrange =>
      have hlength : memory.history.length ≤ number - 1 := by
        simp at hrange
        omega
      rw [List.eraseIdx_of_length_le hlength]

private theorem deletion_ne_history (number : Nat) :
    deletion number ≠ "history" := by
  intro heq
  have hlength := congrArg (fun text : String => text.toList.length) heq
  rw [toList_deletion, List.length_append] at hlength
  have hfront : "history -d ".toList.length = 11 := by decide
  have hhistory : "history".toList.length = 7 := by decide
  omega

/-- What the command prints: each entry with its number. -/
def listing (history : List String) : List String :=
  ((List.range history.length).zip history).map Builtin.historyLine

private theorem outcome_runHistory_list {home : String} {input : Source}
    {session : Session Memory} (hlive : session.cancelled = false)
    {out : Channel.Writer} {machine : Machine}
    (hwritten : Writing.runAll ((listing session.owner.history).map .line)
      session.out session.machine = .ok (out, machine)) :
    outcome (Builtin.runHistory owner (contextIn home input session)
      ⟨false, -1, -1, false⟩) session =
      (.ok .success, { session with out, machine }) := by
  change outcome (do
    writeLines (listing session.owner.history)
    return ExitCode.success) session = _
  rw [outcome_bind, outcome_writeLines hlive hwritten]
  rfl

variable {streams : Streams}

private theorem bindCommand_history
    (hcommand : terminal.registry.lookup "history" = some historySchema) :
    ∃ note, terminal.registry.bindCommand terminal.parsers
      ⟨"history", [], [], ⟨none, none⟩⟩ =
      .ok (historyCommand (-1), note) := by
  rw [Registry.bindCommand, hcommand]
  exact bindTo_history terminal.parsers

theorem runOn_list
    (hcommand : terminal.registry.lookup "history" = some historySchema)
    (hlimit : terminal.config.get .maxHistory = .int limit)
    (hlive : streams.cancelled = false) :
    ∃ memory notes, (memory.history = [] ∨
      memory.history.getLast? = some "history") ∧
      (terminal.runOn streams "history").terminal.config = terminal.config ∧
      (terminal.runOn streams "history").terminal.registry = terminal.registry ∧
      (terminal.runOn streams "history").terminal.memory = memory ∧
      ∀ out machine,
        Writing.runAll ((listing memory.history).map .line) streams.out
            (terminal.machine.noteAll notes) = .ok (out, machine) →
          (terminal.runOn streams "history").result = .ok .success ∧
            (terminal.runOn streams "history").out = out ∧
            (terminal.runOn streams "history").terminal.machine = machine := by
  obtain ⟨memory, hadded, hlast⟩ : ∃ memory,
      terminal.addHistory "history" = (.ok (), { terminal with memory }) ∧
        (memory.history = [] ∨ memory.history.getLast? = some "history") := by
    rcases addHistory_cases hlimit (by decide : Text.allBlank "history" = false) with
      ⟨hsame, hlast⟩ | hadded
    · exact ⟨terminal.memory, hsame, .inr hlast⟩
    · exact ⟨_, hadded, getLast?_recording terminal.memory limit "history"⟩
  have hparse : Pipeline.parse "history" =
      .ok (some [⟨"history", [], [], ⟨none, none⟩⟩]) := rfl
  obtain ⟨note, hbind⟩ := bindCommand_history hcommand
  have hsession : ({ terminal with memory }.sessionFor streams).cancelled = false :=
    hlive
  obtain ⟨notes, houtcome⟩ :=
    outcome_interpretWith_single owner (commands owner) terminal.home
    streams.input hsession hparse hbind rfl
  have hleft : Left memory terminal.registry _ :=
    left_line { terminal with memory } hlive hparse hbind fun session hholding =>
      (keeps_runHistory_list _).ended session hholding
  rw [runOn_of_added (by decide) hadded]
  refine ⟨memory, notes, hlast, rfl, hleft.holding.2, hleft.holding.1, ?_⟩
  intro out machine hwritten
  rw [interpret, houtcome, outcome_runCommand_history,
    outcome_runHistory_list hlive hwritten]
  exact ⟨rfl, rfl, rfl⟩

theorem runOn_deletion
    (hcommand : terminal.registry.lookup "history" = some historySchema)
    (hlimit : terminal.config.get .maxHistory = .int limit)
    (hlive : streams.cancelled = false) {number : Nat} (hnumber : 1 ≤ number)
    (hdigits : (Nat.toDigits 10 number).length ≤ Number.maxDigits)
    (hlast : terminal.memory.history.getLast? ≠ some (deletion number)) :
    (terminal.runOn streams (deletion number)).terminal.memory.history =
      (terminal.memory.recording limit (deletion number)).history.eraseIdx
      (number - 1) := by
  have hblank : Text.allBlank (deletion number) = false := by
    rw [Text.allBlank, toList_deletion, List.all_append, Bool.and_eq_false_iff]
    exact .inl (by decide)
  have hadded : terminal.addHistory (deletion number) =
      (.ok (), { terminal with
        memory := terminal.memory.recording limit (deletion number) }) := by
    rcases addHistory_cases hlimit hblank with ⟨-, hrepeated⟩ | hadded
    · exact absurd hrepeated hlast
    · exact hadded
  obtain ⟨note, hbound⟩ := bindTo_deletion terminal.parsers hdigits
  have hbind : terminal.registry.bindCommand terminal.parsers
      (deletionInvocation number) =
        .ok (historyCommand number, note) := by
    have hnamed : terminal.registry.lookup (deletionInvocation number).name =
        some historySchema :=
      hcommand
    rw [Registry.bindCommand, hnamed]
    exact hbound
  have hleft : Left
      ((terminal.memory.recording limit (deletion number)).deleteEntry number).2
      terminal.registry _ :=
    left_line { terminal with
      memory := terminal.memory.recording limit (deletion number) } hlive
      (parse_deletion number) hbind fun _ hholding =>
        left_runHistory_delete hnumber _ _ hholding
  rw [runOn_of_added hblank hadded]
  exact (congrArg Memory.history hleft.holding.1).trans
    (history_deleteEntry _ hnumber)

/-- Deleting by number does what the list promised exactly if the history has room
for one more line. In a full one the deleting line has pushed the oldest entry out by
the time it deletes. -/
theorem recording_eraseIdx (memory : Memory) {number : Nat} (hnumber : 1 ≤ number)
    (hshown : number ≤ memory.history.length) (hfits : memory.history.length ≤ limit)
    (line : String) :
    (memory.recording limit line).history.eraseIdx (number - 1) =
        memory.history.eraseIdx (number - 1) ++ [line] ↔
          memory.history.length < limit := by
  have hindex : number - 1 < memory.history.length := by omega
  dsimp only [Memory.recording]
  constructor
  · intro hequal
    refine Int.lt_iff_le_and_ne.mpr ⟨hfits, fun hfull => ?_⟩
    have hdropped : (memory.history.length + 1 - limit).toNat = 1 := by omega
    have hlength := congrArg List.length hequal
    rw [hdropped, List.length_eraseIdx, List.length_append,
      List.length_eraseIdx] at hlength
    simp only [List.length_drop, List.length_append,
      List.length_singleton] at hlength
    rw [if_pos (by omega), if_pos hindex] at hlength
    omega
  · intro hroom
    have hkept : (memory.history.length + 1 - limit).toNat = 0 := by omega
    rw [hkept, List.drop_zero, List.eraseIdx_append_of_lt_length hindex]

/-- The list gives each entry its number. The line that then deletes a number has
been recorded by the time it deletes; the promised entry goes, and no other, exactly
if the history was not full. -/
theorem deletion_after_listing
    (hcommand : terminal.registry.lookup "history" = some historySchema)
    (hlimit : terminal.config.get .maxHistory = .int limit) {later : Streams}
    (hlive : streams.cancelled = false) (hlater : later.cancelled = false) :
    let first := terminal.runOn streams "history"
    let shown := first.terminal.memory.history
    (∃ notes, ∀ out machine,
        Writing.runAll ((listing shown).map .line) streams.out
          (terminal.machine.noteAll notes) =
            .ok (out, machine) →
          first.result = .ok .success ∧ first.out = out ∧
            first.terminal.machine = machine) ∧
      ∀ number, 1 ≤ number → number ≤ shown.length →
        (Nat.toDigits 10 number).length ≤ Number.maxDigits →
          let left := (first.terminal.runOn later
            (deletion number)).terminal.memory.history
          left = ((shown ++ [deletion number]).drop
            (shown.length + 1 - limit).toNat).eraseIdx
              (number - 1) ∧
            (shown.length ≤ limit →
              (left = shown.eraseIdx (number - 1) ++ [deletion number] ↔
                shown.length < limit)) := by
  intro first shown
  obtain ⟨memory, notes, hlast, hconfig, hregistry, hmemory, hprinted⟩ :=
    runOn_list hcommand hlimit hlive
  have hshown : shown = memory.history := congrArg Memory.history hmemory
  rw [hshown]
  refine ⟨⟨notes, hprinted⟩, ?_⟩
  intro number hnumber hlisted hdigits left
  have hother : first.terminal.memory.history.getLast? ≠ some (deletion number) := by
    change shown.getLast? ≠ _
    rw [hshown]
    rcases hlast with hempty | hlast
    · simp [hempty]
    · rw [hlast]
      exact fun heq => deletion_ne_history number (Option.some.inj heq).symm
  have hleft : left =
      (first.terminal.memory.recording limit (deletion number)).history.eraseIdx
        (number - 1) :=
    runOn_deletion (by rw [hregistry]; exact hcommand)
      (by rw [hconfig]; exact hlimit) hlater hnumber
      hdigits hother
  rw [hmemory] at hleft
  rw [hleft]
  exact ⟨rfl, fun hfits =>
    recording_eraseIdx memory hnumber hlisted hfits (deletion number)⟩

/-! A history with room for three entries. -/

def smallTerminal : Terminal :=
  { sampleTerminal with config := Config.default.set .maxHistory (.int 3) }

theorem deletion_after_listing_small :
    smallTerminal.registry.lookup "history" = some historySchema ∧
      smallTerminal.config.get .maxHistory = .int 3 ∧
      (let shown :=
        (smallTerminal.runOn sampleStreams "history").terminal.memory.history
      1 ≤ shown.length ∧
        ((smallTerminal.runOn sampleStreams "history").terminal.runOn sampleStreams
            (deletion 1)).terminal.memory.history =
          ((shown ++ [deletion 1]).drop
            (shown.length + 1 - 3 : Int).toNat).eraseIdx 0) := by
  have hlisted : 1 ≤
      (smallTerminal.runOn sampleStreams
        "history").terminal.memory.history.length := by
    decide +kernel
  exact ⟨rfl, rfl, hlisted,
    ((deletion_after_listing rfl rfl rfl rfl).2 1 (by decide) hlisted (by decide)).1⟩

/-- With the history full, the number of the oldest entry deletes the one after
it. -/
theorem full_history_deletes_next :
    let listed := (smallTerminal.runLinesOn sampleStreams
      ["echo 1", "echo 2", "echo 3", "history"]).terminal
    listed.memory.history = ["echo 2", "echo 3", "history"] ∧
      (listed.runOn sampleStreams "history -d 1").terminal.memory.history =
        ["history", "history -d 1"] := by
  decide +kernel

end History

end Terminal

end PipeShell
