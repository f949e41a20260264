import PipeShell.FileTree

namespace PipeShell.FileTree

variable {tree : FileTree} {path : String} {names found current : List String}
  {node old : Node}

theorem find?_setIn (entries : List (List String × Node)) (names other : List String)
    (node : Node) : ((setIn names node entries).find? (·.1 = other)).map (·.2) =
      if other = names then some node
        else (entries.find? (·.1 = other)).map (·.2) := by
  induction entries with
  | nil => by_cases hother : other = names <;> simp [setIn, hother, eq_comm]
  | cons entry rest ih =>
      obtain ⟨key, old⟩ := entry
      by_cases hkey : key = names
      · subst hkey
        by_cases hother : other = key
        · simp [setIn, hother]
        · simp [setIn, hother, Ne.symm hother]
      · by_cases hother : key = other
        · subst hother
          simp [setIn, hkey]
        · rw [setIn, if_neg hkey, List.find?_cons_of_neg (by simpa using hother), ih,
            List.find?_cons_of_neg (by simpa using hother)]

theorem get?_set_self (hroot : names ≠ []) (node : Node) :
    (tree.set names node).get? names = some node := by
  rw [get?, if_neg (by simpa using hroot), set, find?_setIn, if_pos rfl]

theorem get?_set_of_ne (hother : found ≠ names) (node : Node) :
    (tree.set names node).get? found = tree.get? found := by
  rw [get?, get?, set, find?_setIn, if_neg hother]

/-- Where one part of a path leads from a directory. -/
def enter (current : List String) (part : String) : Except Fault (List String) :=
  if part = "" || part = "." then .ok current
  else if part = ".." then .ok current.dropLast
  else if nameTooLong part then .error .nameTooLong
  else .ok (current ++ [part])

theorem walk_nil_ok (hwalk : tree.walk current [] = .ok (found, node)) :
    current = found ∧ tree.get? current = some node := by
  rw [walk] at hwalk
  split at hwalk
  · next hget =>
      cases hwalk
      exact ⟨rfl, hget⟩
  · cases hwalk

theorem walk_cons (hdirectory : tree.get? current = some .directory) (part : String)
    (parts : List String) :
    tree.walk current (part :: parts) = (enter current part).bind
      (tree.walk · parts) := by
  rw [walk, hdirectory, enter]
  simp only
  split
  · rfl
  · split
    · rfl
    · split <;> rfl

theorem walk_cons_ok {part : String} {parts : List String}
    (hwalk : tree.walk current (part :: parts) = .ok (found, node)) :
    tree.get? current = some .directory ∧
      ∃ next, enter current part = .ok next ∧
        tree.walk next parts = .ok (found, node) := by
  have hdirectory : tree.get? current = some .directory := by
    rw [walk] at hwalk
    split at hwalk
    · cases hwalk
    · cases hwalk
    · next hget => exact hget
  rw [walk_cons hdirectory] at hwalk
  cases henter : enter current part with
  | error fault =>
      rw [henter] at hwalk
      cases hwalk
  | ok next =>
      rw [henter] at hwalk
      exact ⟨hdirectory, next, rfl, hwalk⟩

theorem get?_of_walk {parts : List String}
    (hwalk : tree.walk current parts = .ok (found, node)) :
    tree.get? found = some node := by
  induction parts generalizing current with
  | nil =>
      obtain ⟨rfl, hget⟩ := walk_nil_ok hwalk
      exact hget
  | cons part parts ih =>
      obtain ⟨-, next, -, hrest⟩ := walk_cons_ok hwalk
      exact ih hrest

theorem walk_append {front : List String}
    (hwalk : tree.walk current front = .ok (found, .directory))
    (back : List String) :
    tree.walk current (front ++ back) = tree.walk found back := by
  induction front generalizing current with
  | nil =>
      obtain ⟨rfl, -⟩ := walk_nil_ok hwalk
      rfl
  | cons part front ih =>
      obtain ⟨hdirectory, next, henter, hrest⟩ := walk_cons_ok hwalk
      rw [List.cons_append, walk_cons hdirectory, henter]
      exact ih hrest

theorem walk_set {parts : List String} (hfile : tree.get? names ≠ some .directory)
    (hwalk : tree.walk current parts = .ok (found, old)) (node : Node) :
    (tree.set names node).walk current parts = .ok (found, if found = names then node
      else old) := by
  have hroot : names ≠ [] := by
    rintro rfl
    exact hfile rfl
  induction parts generalizing current with
  | nil =>
      obtain ⟨rfl, hget⟩ := walk_nil_ok hwalk
      rw [walk]
      by_cases hsame : current = names
      · rw [hsame, get?_set_self hroot, if_pos rfl]
      · rw [get?_set_of_ne hsame, hget, if_neg hsame]
  | cons part parts ih =>
      -- A walk comes through directories only, so what is set can only be where it
      -- ends.
      obtain ⟨hdirectory, next, henter, hrest⟩ := walk_cons_ok hwalk
      have hother : current ≠ names := by
        rintro rfl
        exact hfile hdirectory
      have hkept : (tree.set names node).get? current = some .directory := by
        rw [get?_set_of_ne hother, hdirectory]
      rw [walk_cons hkept, henter]
      exact ih hrest

private theorem walk_set_directory {parts : List String}
    (hfile : tree.get? names ≠ some .directory)
    (hwalk : tree.walk current parts = .ok (found, .directory)) (node : Node) :
    (tree.set names node).walk current parts = .ok (found, .directory) := by
  have hother : found ≠ names := by
    rintro rfl
    exact hfile (get?_of_walk hwalk)
  rw [walk_set hfile hwalk, if_neg hother]

theorem openForReading_set (hopen : tree.openForReading path = .ok names)
    (content : List UInt8) :
    (tree.set names (.file content)).openForReading path = .ok names := by
  unfold openForReading locate at hopen ⊢
  split at hopen
  · cases hopen
  · cases hopen
  · next old hlocate =>
      cases hopen
      split at hlocate
      · cases hlocate
      · next hpath =>
          have hfile : tree.get? names ≠ some .directory := by
            rw [get?_of_walk hlocate]
            nofun
          rw [if_neg hpath, walk_set hfile hlocate, if_pos rfl]

theorem enter_eq_iff {part : String} :
    enter current part = .ok (current ++ [part]) ↔
      part ≠ "" ∧ part ≠ "." ∧ part ≠ ".." ∧ nameTooLong part = false := by
  have hlonger : current ≠ current ++ [part] := by simp
  have hshorter : current.dropLast ≠ current ++ [part] := by
    intro hsame
    have hlength := congrArg List.length hsame
    rw [List.length_dropLast, List.length_append, List.length_singleton] at hlength
    omega
  unfold enter
  by_cases hstay : part = "" ∨ part = "."
  · rcases hstay with rfl | rfl <;> simp
  · rw [not_or] at hstay
    by_cases hup : part = ".."
    · subst hup
      simpa using hshorter
    · by_cases hlong : nameTooLong part =
        true <;> simp [hstay.1, hstay.2, hup, hlong]

theorem place_ok_iff {name : String} :
    tree.place path = .ok (names, name) ↔
      ∃ front, Text.split '/' path = front ++ [name] ∧
        tree.walk [] front = .ok (names, .directory) ∧
          enter names name = .ok (names ++ [name]) := by
  unfold place
  simp only
  generalize Text.split '/' path = parts
  constructor
  · intro hplace
    split at hplace
    · split at hplace <;> cases hplace
    · next last hlast =>
        split at hplace
        · cases hplace
        · cases hplace
        · next found hwalk =>
            split at hplace
            · cases hplace
            · next hwhole =>
                split at hplace
                · cases hplace
                · next hshort =>
                    cases hplace
                    simp only [Bool.or_eq_true, decide_eq_true_eq, not_or] at hwhole
                    have hsame : parts.reverse.dropWhile (· = "") =
                        parts.reverse := by
                      refine (List.dropWhile_suffix _).eq_of_length_le ?_
                      simpa using hwhole.1.1
                    rw [hsame, List.reverse_reverse] at hlast hwalk
                    have hsome := List.head?_dropWhile_not (· = "") parts.reverse
                    rw [hsame, List.head?_reverse, hlast] at hsome
                    obtain ⟨front, rfl⟩ := List.getLast?_eq_some_iff.mp hlast
                    rw [List.dropLast_concat] at hwalk
                    exact ⟨front, rfl, hwalk, enter_eq_iff.mpr
                      ⟨by simpa using hsome, hwhole.1.2,
                        hwhole.2, by simpa using hshort⟩⟩
  · rintro ⟨front, rfl, hwalk, henter⟩
    obtain ⟨hsome, hdot, hdots, hshort⟩ := enter_eq_iff.mp henter
    have hkept : ((front ++ [name]).reverse.dropWhile (· = "")).reverse = front ++
        [name] := by
      rw [List.reverse_concat, List.dropWhile_cons_of_neg (by simpa using hsome)]
      simp
    simp only [hkept, List.getLast?_concat, List.dropLast_concat, hwalk]
    simp [hdot, hdots, hshort]

theorem locate_of_place {name : String}
    (hplace : tree.place path = .ok (names, name)) :
    tree.locate path = tree.walk (names ++ [name]) [] := by
  obtain ⟨front, hparts, hwalk, henter⟩ := place_ok_iff.mp hplace
  have hpath : path ≠ "" := by
    rintro rfl
    have hlast : some "" = (front ++ [name]).getLast? :=
      congrArg List.getLast? hparts
    rw [List.getLast?_concat, Option.some.injEq] at hlast
    exact (enter_eq_iff.mp henter).1 hlast.symm
  rw [locate, if_neg hpath, hparts, walk_append hwalk,
    walk_cons (get?_of_walk hwalk), henter]
  rfl

theorem place_set {name : String} (hplace : tree.place path = .ok (names, name))
    (hfile : tree.get? (names ++ [name]) ≠ some .directory) (node : Node) :
    (tree.set (names ++ [name]) node).place path = .ok (names, name) := by
  obtain ⟨front, hparts, hwalk, henter⟩ := place_ok_iff.mp hplace
  exact place_ok_iff.mpr ⟨front, hparts, walk_set_directory hfile hwalk node, henter⟩

/-- The path names a file with this content, and the file can be written to by that
path. -/
structure Stands (tree : FileTree) (path : String) (names : List String)
    (content : List UInt8) :
    Prop where
  plain : hasZero path = false
  place : ∃ parent name, tree.place path = .ok (parent, name) ∧
    names = parent ++ [name]
  node : tree.get? names = some (.file content)

variable {content : List UInt8}

theorem Stands.content_eq (hstands : tree.Stands path names content) :
    tree.content names = content := by
  rw [FileTree.content, hstands.node]

theorem Stands.read?_eq (hstands : tree.Stands path names content) :
    tree.read? path = some content := by
  obtain ⟨parent, name, hplace, rfl⟩ := hstands.place
  have hopen : tree.openForReading path = .ok (parent ++ [name]) := by
    rw [openForReading, locate_of_place hplace, walk, hstands.node]
  rw [read?, hstands.plain, hopen]
  exact congrArg some hstands.content_eq

theorem Stands.set (hstands : tree.Stands path names content) (new : List UInt8) :
    (tree.set names (.file new)).Stands path names new := by
  obtain ⟨parent, name, hplace, rfl⟩ := hstands.place
  have hfile : tree.get? (parent ++ [name]) ≠ some .directory := by
    rw [hstands.node]
    simp
  exact ⟨hstands.plain, ⟨parent, name, place_set hplace hfile _, rfl⟩,
    get?_set_self (by simp) _⟩

theorem stands_of_openForWriting {append : Bool} {opened : FileTree}
    (hplain : hasZero path = false)
    (hopen : tree.openForWriting path append = .ok (opened, names)) :
    opened.Stands path names (if append then (tree.read? path).getD [] else []) := by
  unfold openForWriting at hopen
  split at hopen
  · cases hopen
  · next parent name hplace =>
      simp only at hopen
      split at hopen
      · cases hopen
      · next old hold =>
          cases hopen
          have hstands : tree.Stands path (parent ++ [name]) old :=
            ⟨hplain, ⟨parent, name, hplace, rfl⟩, hold⟩
          cases append with
          | true => simpa [hstands.read?_eq] using hstands
          | false => exact hstands.set []
      · next hmissing =>
          cases hopen
          have hread : tree.read? path = none := by
            rw [read?, hplain, openForReading, locate_of_place hplace,
              walk, hmissing]
            rfl
          have hnew : (if append = true then (tree.read? path).getD [] else []) =
              [] := by
            rw [hread]
            split <;> rfl
          rw [hnew]
          exact ⟨hplain, ⟨parent, name,
            place_set hplace (by simp [hmissing]) _, rfl⟩, get?_set_self (by simp) _⟩

end PipeShell.FileTree
