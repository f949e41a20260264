namespace PipeShell

abbrev Table (α : Type) := List (String × α)

namespace Table

variable {α : Type}

def get? (key : String) : Table α → Option α
  | [] => none
  | (k, value) :: rest => if k = key then some value else get? key rest

/-- Sets an entry; one that is already there keeps its place. -/
def set (key : String) (value : α) : Table α → Table α
  | [] => [(key, value)]
  | (k, old) :: rest =>
      if k = key then (k, value) :: rest else (k, old) :: set key value rest

def erase (key : String) (table : Table α) : Table α :=
  table.filter (·.1 ≠ key)

def keys (table : Table α) : List String :=
  table.map (·.1)

@[simp] theorem get?_set_self (key : String) (value : α) (table : Table α) :
    get? key (set key value table) = some value := by
  induction table with
  | nil => simp [set, get?]
  | cons entry rest ih =>
      by_cases h : entry.1 = key
      · simp [set, get?, h]
      · simp [set, get?, h, ih]

theorem get?_set_of_ne {key other : String} (h : other ≠ key) (value : α)
    (table : Table α) :
    get? other (set key value table) = get? other table := by
  induction table with
  | nil => simp [set, get?, Ne.symm h]
  | cons entry rest ih =>
      by_cases hk : entry.1 = key
      · simp [set, get?, hk, Ne.symm h]
      · simp [set, get?, hk, ih]

end Table

end PipeShell
