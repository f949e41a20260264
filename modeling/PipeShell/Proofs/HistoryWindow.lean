import PipeShell.Proofs.Basic
import PipeShell.Proofs.HistoryNumbers

namespace PipeShell.Terminal

/-- The lines without those that repeat the one before, if such lines are ignored. -/
def collapsed (ignoreDuplicates : Bool) (lines : List String) : List String :=
  if ignoreDuplicates then lines.destutter (· ≠ ·) else lines

private theorem collapsed_concat (ignoreDuplicates : Bool) (lines : List String)
    (line : String) :
    collapsed ignoreDuplicates (lines ++ [line]) =
      if ignoreDuplicates && (collapsed ignoreDuplicates lines).getLast? =
        some line then
        collapsed ignoreDuplicates lines
      else collapsed ignoreDuplicates lines ++ [line] := by
  cases ignoreDuplicates with
  | false => rfl
  | true =>
      cases lines with
      | nil => rfl
      | cons first lines =>
          simp only [collapsed, if_true, List.cons_append, List.destutter_cons',
            Bool.true_and, decide_eq_true_eq]
          exact destutter'_concat first lines line

def withHistory (terminal : Terminal) (history : List String) : Terminal :=
  { terminal with memory := { terminal.memory with history } }

/-- The history with a line more, unless the line is blank or repeats the last
one. -/
def remembering (ignoreDuplicates : Bool) (limit : Nat) (history : List String)
    (line : String) :
    List String :=
  if Text.allBlank line then history
  else if ignoreDuplicates && history.getLast? = some line then history
  else (history ++ [line]).rtake limit

theorem addHistory_eq {terminal : Terminal} {limit : Nat}
    (hlimit : terminal.config.get .maxHistory = .int limit) (line : String) :
    terminal.addHistory line =
      (.ok (), terminal.withHistory
        (remembering (terminal.config.get .ignoreDuplicates).truthy limit
          terminal.memory.history line)) := by
  unfold addHistory remembering Memory.addLine
  dsimp only
  split
  · rw [if_pos rfl]
    rfl
  · split
    · rw [if_pos rfl]
      rfl
    · have hcount : ((terminal.memory.history.length + 1 : Nat) -
          (limit : Int)).toNat =
            terminal.memory.history.length + 1 - limit := by omega
      rw [if_neg (by simp), hlimit]
      simp only [Memory.trim, overflow, Except.map, List.length_append,
        List.length_singleton, hcount]
      simp only [withHistory, List.rtake, List.length_append, List.length_singleton]

/-- The history after a line is cut from the same lines as the history before it. -/
theorem remembering_rtake (ignoreDuplicates : Bool) (limit : Nat)
    (lines : List String) {line : String} (hblank : Text.allBlank line = false) :
    remembering ignoreDuplicates limit
      ((collapsed ignoreDuplicates lines).rtake limit) line =
      (collapsed ignoreDuplicates (lines ++ [line])).rtake limit := by
  rw [remembering, if_neg (by simp [hblank]), rtake_concat_rtake, collapsed_concat]
  cases limit with
  | zero => simp only [List.rtake_zero, ite_self]
  | succ limit =>
      rw [getLast?_rtake _ (Nat.succ_pos limit)]
      split <;> rfl

inductive HistoryCall where
  | add (line : String)
  | clear
  | delete (position : Int)
  deriving DecidableEq, Repr

def HistoryCall.perform (terminal : Terminal) :
    HistoryCall → Except Fault Unit × Terminal
  | .add line => terminal.addHistory line
  | .clear => (.ok (), terminal.clearHistory)
  | .delete position => (.ok (), (terminal.deleteEntry position).2)

def afterCalls (terminal : Terminal) (calls : List HistoryCall) : Terminal :=
  calls.foldl (fun terminal call => (call.perform terminal).2) terminal

structure Bounded (limit : Nat) (history : List String) : Prop where
  length : history.length ≤ limit
  lines : ∀ line ∈ history, Text.allBlank line = false

variable {terminal : Terminal} {limit : Nat} {history : List String}

private theorem Bounded.remembering (hbounded : Bounded limit history)
    (ignoreDuplicates : Bool) (line : String) :
    Bounded limit (remembering ignoreDuplicates limit history line) := by
  unfold Terminal.remembering
  split
  · exact hbounded
  · next hblank =>
      split
      · exact hbounded
      · refine ⟨?_, ?_⟩
        · rw [List.rtake, List.length_drop]
          omega
        · intro other hother
          rcases List.mem_append.mp (List.mem_of_mem_drop hother) with hold | hnew
          · exact hbounded.lines other hold
          · rw [List.mem_singleton.mp hnew]
            simpa using hblank

theorem deleteEntry_cases (terminal : Terminal) (position : Int) :
    (1 ≤ position ∧ position ≤ terminal.memory.history.length ∧
      ∃ before entry after, terminal.memory.history = before ++ entry :: after ∧
        position = before.length + 1 ∧
        terminal.deleteEntry position =
          (true, terminal.withHistory (before ++ after))) ∨
    (¬ (1 ≤ position ∧ position ≤ terminal.memory.history.length) ∧
      terminal.deleteEntry position = (false, terminal)) := by
  by_cases hrange : 1 ≤ position ∧ position ≤ terminal.memory.history.length
  · left
    have hindex : (position - 1).toNat < terminal.memory.history.length := by omega
    refine ⟨hrange.1, hrange.2, terminal.memory.history.take (position - 1).toNat,
      terminal.memory.history[(position - 1).toNat],
      terminal.memory.history.drop ((position - 1).toNat + 1),
      ?_, ?_, ?_⟩
    · rw [List.getElem_cons_drop, List.take_append_drop]
    · rw [List.length_take, Nat.min_eq_left hindex.le]
      omega
    · rw [← List.eraseIdx_eq_take_drop_succ]
      simp [deleteEntry, Memory.deleteEntry, hrange, withHistory]
  · right
    refine ⟨hrange, ?_⟩
    rw [deleteEntry, Memory.deleteEntry, if_neg (by simpa using hrange)]

theorem HistoryCall.perform_bounded
    (hlimit : terminal.config.get .maxHistory = .int limit)
    (hbounded : Bounded limit terminal.memory.history) (call : HistoryCall) :
    ∃ history, call.perform terminal = (.ok (), terminal.withHistory history) ∧
      Bounded limit history := by
  cases call with
  | add line => exact ⟨_, addHistory_eq hlimit line, hbounded.remembering _ line⟩
  | clear => exact ⟨[], rfl, ⟨Nat.zero_le limit, nofun⟩⟩
  | delete position =>
      rcases terminal.deleteEntry_cases position with
        ⟨-, -, before, entry, after, hhistory, -, hdeleted⟩ | ⟨-, hkept⟩
      · refine ⟨before ++ after, by rw [perform, hdeleted], ?_, ?_⟩
        · have hlength := hbounded.length
          rw [hhistory, List.length_append, List.length_cons] at hlength
          rw [List.length_append]
          omega
        · intro line hline
          apply hbounded.lines line
          rw [hhistory]
          simp only [List.mem_append, List.mem_cons] at hline ⊢
          exact hline.imp_right .inr
      · exact ⟨terminal.memory.history, by rw [perform, hkept]; rfl, hbounded⟩

private theorem afterCalls_bounded
    (hlimit : terminal.config.get .maxHistory = .int limit)
    (hbounded : Bounded limit terminal.memory.history) (calls : List HistoryCall) :
    ∃ history, terminal.afterCalls calls = terminal.withHistory history ∧
      Bounded limit history := by
  induction calls generalizing terminal with
  | nil => exact ⟨terminal.memory.history, rfl, hbounded⟩
  | cons call calls ih =>
      obtain ⟨history, hperform, hafter⟩ := call.perform_bounded hlimit hbounded
      have hnext : terminal.afterCalls (call :: calls) =
          (terminal.withHistory history).afterCalls calls := by
        rw [afterCalls, List.foldl_cons, hperform]
        rfl
      rw [hnext]
      exact @ih (terminal.withHistory history) hlimit hafter

private theorem afterCalls_add
    (hlimit : terminal.config.get .maxHistory = .int limit)
    (hfresh : terminal.memory.history = []) (lines : List String) :
    terminal.afterCalls (lines.map .add) =
      terminal.withHistory ((collapsed (terminal.config.get .ignoreDuplicates).truthy
        (lines.filter fun line => !Text.allBlank line)).rtake limit) := by
  generalize hignore : (terminal.config.get .ignoreDuplicates).truthy =
    ignoreDuplicates
  -- Each line is added to what the lines before it have left.
  induction lines using List.reverseRecOn with
  | nil =>
      have hnone : (collapsed ignoreDuplicates []).rtake limit =
          terminal.memory.history := by
        rw [hfresh]
        cases ignoreDuplicates <;> exact List.rtake_nil limit
      rw [List.filter_nil, hnone]
      rfl
  | append_singleton lines line ih =>
      have hlast : terminal.afterCalls ((lines ++ [line]).map .add) =
          ((terminal.afterCalls (lines.map .add)).addHistory line).2 := by
        rw [afterCalls, List.map_append, List.foldl_append]
        rfl
      have hadded (history : List String) :
          ((terminal.withHistory history).addHistory line).2 =
            terminal.withHistory (remembering ignoreDuplicates limit history
              line) := by
        rw [@addHistory_eq (terminal.withHistory history) limit hlimit, ← hignore]
        rfl
      rw [hlast, ih, hadded, List.filter_append]
      cases hblank : Text.allBlank line with
      | true => simp [remembering, hblank]
      | false =>
          rw [remembering_rtake _ _ _ hblank]
          simp [hblank]

/-- After any calls the history is within its limit, none of its lines is blank, and
every further call succeeds. A position deletes if it counts one of the entries, from
one on; then that entry goes and nothing else changes. If the calls have only added
lines, the history is the end of the list of those that are not blank. -/
theorem history_is_bounded_log
    (hlimit : terminal.config.get .maxHistory = .int limit)
    (hfresh : terminal.memory.history = []) (calls : List HistoryCall) :
    let reached := terminal.afterCalls calls
    let history := reached.memory.history
    history.length ≤ limit ∧ (∀ line ∈ history, Text.allBlank line = false) ∧
      (∀ call : HistoryCall, (call.perform reached).1 = .ok ()) ∧
      (∀ position : Int,
        let (deleted, left) := reached.deleteEntry position
        (deleted = true ↔ 1 ≤ position ∧ position ≤ history.length) ∧
          (deleted = true → ∃ before entry after, history = before ++
            entry :: after ∧
            position = before.length + 1 ∧
              left = reached.withHistory (before ++ after)) ∧
          (deleted = false → left = reached)) ∧
      ∀ lines : List String, calls = lines.map .add →
        history = (collapsed (terminal.config.get .ignoreDuplicates).truthy
          (lines.filter fun line => !Text.allBlank line)).rtake limit := by
  intro reached history
  have hstart : Bounded limit terminal.memory.history := by
    rw [hfresh]
    exact ⟨Nat.zero_le limit, nofun⟩
  obtain ⟨kept, hreached, hbounded⟩ := afterCalls_bounded hlimit hstart calls
  have hhistory : history = kept :=
    congrArg (fun terminal => terminal.memory.history) hreached
  have hconfig : reached.config.get .maxHistory = .int limit :=
    (congrArg (fun terminal => terminal.config.get .maxHistory) hreached).trans
      hlimit
  rw [← hhistory] at hbounded
  refine ⟨hbounded.length, hbounded.lines, ?_, ?_, ?_⟩
  · intro call
    obtain ⟨_, hperform, -⟩ := call.perform_bounded hconfig hbounded
    rw [hperform]
  · intro position
    rcases reached.deleteEntry_cases position with
      ⟨hfirst, hlast, before, entry, after, hsplit, hposition,
        hdeleted⟩ | ⟨hrange, hkept⟩
    · rw [hdeleted]
      exact ⟨⟨fun _ => ⟨hfirst, hlast⟩, fun _ => rfl⟩,
        fun _ => ⟨before, entry, after, hsplit, hposition, rfl⟩, nofun⟩
    · rw [hkept]
      exact ⟨⟨nofun, fun hin => absurd hin hrange⟩, nofun, fun _ => rfl⟩
  · rintro lines rfl
    exact congrArg (fun terminal => terminal.memory.history)
      (afterCalls_add hlimit hfresh lines)

/-- Six lines of which one is blank and one a repetition, where there is room for
three. -/
theorem history_is_bounded_log_small :
    smallTerminal.config.get .maxHistory = .int (3 : Nat) ∧
      smallTerminal.memory.history = [] ∧
      (smallTerminal.afterCalls
        (["a", "b", " ", "b", "c", "b"].map .add)).memory.history =
        ["b", "c", "b"] ∧
      ((smallTerminal.afterCalls [.add "a", .add "b"]).deleteEntry 1).1 = true := by
  obtain ⟨-, -, -, -, hlines⟩ :=
    @history_is_bounded_log smallTerminal 3 rfl rfl
      (["a", "b", " ", "b", "c", "b"].map .add)
  obtain ⟨-, -, -, hdeletion, -⟩ :=
    @history_is_bounded_log smallTerminal 3 rfl rfl [.add "a", .add "b"]
  refine ⟨rfl, rfl, ?_, (hdeletion 1).1.mpr (by decide +kernel)⟩
  rw [hlines _ rfl]
  decide +kernel

end PipeShell.Terminal
