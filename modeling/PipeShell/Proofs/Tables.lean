import Mathlib.Data.List.Nodup
import PipeShell.Table

namespace PipeShell.Table

variable {α β : Type} {key other : String} {value : α} {table : Table α}

theorem keys_set (key : String) (value : α) (table : Table α) :
    keys (set key value table) =
      if key ∈ keys table then keys table else keys table ++ [key] := by
  induction table with
  | nil => simp [set, keys]
  | cons entry rest ih =>
      unfold keys at ih ⊢
      by_cases hkey : entry.1 = key
      · simp [set, hkey]
      · rw [set, if_neg hkey, List.map_cons, ih]
        by_cases hrest : key ∈ rest.map (·.1)
        · simp [hrest]
        · simp [hrest, Ne.symm hkey]

theorem keys_erase (key : String) (table : Table α) :
    keys (erase key table) = (keys table).filter (· ≠ key) := by
  simp [keys, erase, List.filter_map, Function.comp_def]

theorem mem_set {entry : String × α} (hentry : entry ∈ set key value table) :
    entry ∈ table ∨ entry.2 = value := by
  induction table with
  | nil =>
      obtain rfl := List.mem_singleton.mp hentry
      exact .inr rfl
  | cons first rest ih =>
      rw [set] at hentry
      split at hentry
      · rcases List.mem_cons.mp hentry with rfl | hrest
        · exact .inr rfl
        · exact .inl (List.mem_cons_of_mem _ hrest)
      · rcases List.mem_cons.mp hentry with rfl | hrest
        · exact .inl List.mem_cons_self
        · exact (ih hrest).imp_left (List.mem_cons_of_mem _)

theorem set_set (key : String) (first second : α) (table : Table α) :
    set key second (set key first table) = set key second table := by
  induction table with
  | nil => simp [set]
  | cons entry rest ih =>
      obtain ⟨name, old⟩ := entry
      by_cases hname : name = key
      · simp [set, hname]
      · simp [set, hname, ih]

theorem set_comm (hne : key ≠ other) (hkey : ∃ old, get? key table = some old)
    (hother : ∃ old, get? other table = some old) (value first : α) :
    set key value (set other first table) =
      set other first (set key value table) := by
  induction table with
  | nil =>
      obtain ⟨old, hold⟩ := hkey
      cases hold
  | cons entry rest ih =>
      obtain ⟨name, old⟩ := entry
      by_cases hname : name = key
      · have hapart : ¬name = other := fun hsame => hne (hname.symm.trans hsame)
        simp only [set, if_neg hapart, if_pos hname]
      · by_cases hthis : name = other
        · simp only [set, if_neg hname, if_pos hthis]
        · simp only [get?, if_neg hname] at hkey
          simp only [get?, if_neg hthis] at hother
          simp only [set, if_neg hname, if_neg hthis, ih hkey hother]

theorem get?_erase_self (key : String) (table : Table α) :
    get? key (erase key table) = none := by
  induction table with
  | nil => rfl
  | cons entry rest ih =>
      unfold erase at ih ⊢
      by_cases hkey : entry.1 = key
      · simpa [hkey] using ih
      · simpa [hkey, get?] using ih

theorem get?_erase_of_ne (hother : other ≠ key) (table : Table α) :
    get? other (erase key table) = get? other table := by
  induction table with
  | nil => rfl
  | cons entry rest ih =>
      unfold erase at ih ⊢
      by_cases hkey : entry.1 = key
      · simpa [hkey, get?, Ne.symm hother] using ih
      · rw [List.filter_cons_of_pos (by simpa using hkey), get?, get?, ih]

theorem mem_keys_iff : key ∈ keys table ↔ ∃ value, get? key table = some value := by
  induction table with
  | nil => simp [keys, get?]
  | cons entry rest ih =>
      unfold keys at ih ⊢
      by_cases hkey : entry.1 = key
      · simp [get?, hkey]
      · simp [get?, hkey, Ne.symm hkey, ← ih]

private theorem get?_eq_none (habsent : key ∉ keys table) :
    get? key table = none := by
  cases hget : get? key table with
  | none => rfl
  | some value => exact absurd (mem_keys_iff.mpr ⟨value, hget⟩) habsent

theorem mem_of_get? (hget : get? key table = some value) : (key, value) ∈ table := by
  induction table with
  | nil => cases hget
  | cons entry rest ih =>
      rw [get?] at hget
      split at hget
      · next hkey =>
          cases hget
          exact hkey ▸ List.mem_cons_self
      · exact List.mem_cons_of_mem _ (ih hget)

theorem mem_iff_get? (hdistinct : (keys table).Nodup) :
    (key, value) ∈ table ↔ get? key table = some value := by
  refine ⟨fun hentry => ?_, mem_of_get?⟩
  induction table with
  | nil => cases hentry
  | cons entry rest ih =>
      obtain ⟨hfirst, hrest⟩ := List.nodup_cons.mp hdistinct
      rw [get?]
      rcases List.mem_cons.mp hentry with rfl | hentry
      · exact if_pos rfl
      · -- The key stands further on, so it cannot be the first.
        have hother : entry.1 ≠ key := by
          rintro rfl
          exact hfirst (List.mem_map.mpr ⟨_, hentry, rfl⟩)
        rw [if_neg hother]
        exact ih hrest hentry

theorem get?_map {δ : Type} (name : δ → String) (value : δ → α) (key : String)
    (items : List δ) :
    get? key (items.map fun item => (name item, value item)) =
      (items.find? (name · = key)).map value := by
  induction items with
  | nil => rfl
  | cons item rest ih =>
      rw [List.map_cons, get?]
      by_cases hkey : name item = key
      · simp [hkey]
      · rw [if_neg hkey, ih, List.find?_cons_of_neg (by simpa using hkey)]

/-- Where no name stands twice, the first entry under a name is the only one. -/
theorem flatMap_get? (hdistinct : table.keys.Nodup) (key : String)
    (values : α → List β) :
    (table.flatMap fun entry => if entry.1 = key then values entry.2 else []) =
      ((get? key table).map values).getD [] := by
  induction table with
  | nil => rfl
  | cons entry rest ih =>
      obtain ⟨name, value⟩ := entry
      obtain ⟨hname, hrest⟩ := List.nodup_cons.mp hdistinct
      rw [List.flatMap_cons, ih hrest, get?]
      by_cases hkey : name = key
      · subst hkey
        have hnone : get? name rest = none := get?_eq_none hname
        simp [hnone]
      · simp [hkey]

end PipeShell.Table
