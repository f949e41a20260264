import Mathlib.Data.List.Destutter
import Mathlib.Data.List.DropRight

namespace PipeShell

section Except

variable {ε α β γ : Type} {result : Except ε α}

theorem exists_of_bind_ok {next : α → Except ε β} {value : β}
    (hbind : result >>= next = .ok value) :
    ∃ found, result = .ok found ∧ next found = .ok value := by
  cases result with
  | error error => cases hbind
  | ok found => exact ⟨found, rfl, hbind⟩

theorem exists_of_map_ok {f : α → β} {value : β} (hmap : result.map f = .ok value) :
    ∃ before, result = .ok before ∧ f before = value := by
  cases result with
  | error error => cases hmap
  | ok before => exact ⟨before, rfl, Except.ok.inj hmap⟩

theorem exists_map_error_iff {f : α → β} :
    (∃ error, result.map f = .error error) ↔ ∃ error, result = .error error := by
  cases result <;> simp [Except.map]

theorem toOption_map (result : Except ε α) (f : α → β) :
    (result.map f).toOption = result.toOption.map f := by
  cases result <;> rfl

theorem toOption_cases {ε' : Type} {result' : Except ε' α}
    (hsame : result.toOption = result'.toOption) :
    (∃ error error', result = .error error ∧ result' = .error error') ∨
      ∃ value, result = .ok value ∧ result' = .ok value := by
  rcases result with error | value <;> rcases result' with
    error' | value' <;> cases hsame
  · exact .inl ⟨error, error', rfl, rfl⟩
  · exact .inr ⟨value, rfl, rfl⟩

theorem exists_of_mapM_ok {f : α → Except ε β} {items : List α} {results : List β}
    (hmap : items.mapM f = .ok results) :
    ∀ result ∈ results, ∃ item ∈ items, f item = .ok result := by
  induction items generalizing results with
  | nil =>
      cases hmap
      exact fun _ hmember => absurd hmember List.not_mem_nil
  | cons item rest ih =>
      rw [List.mapM_cons] at hmap
      obtain ⟨first, hfirst, hmap⟩ := exists_of_bind_ok hmap
      obtain ⟨others, hothers, hmap⟩ := exists_of_bind_ok hmap
      cases hmap
      refine List.forall_mem_cons.mpr
        ⟨⟨item, List.mem_cons_self, hfirst⟩, fun result hresult => ?_⟩
      obtain ⟨source, hsource, hfound⟩ := ih hothers result hresult
      exact ⟨source, List.mem_cons_of_mem _ hsource, hfound⟩

theorem mapM_error {f : α → Except ε β} {items : List α} {error : ε}
    (herror : items.mapM f = .error error) :
    ∃ item ∈ items, f item = .error error := by
  induction items with
  | nil => cases herror
  | cons item rest ih =>
      rw [List.mapM_cons] at herror
      cases hitem : f item with
      | error fault =>
          rw [hitem] at herror
          cases herror
          exact ⟨item, List.mem_cons_self, hitem⟩
      | ok value =>
          rw [hitem] at herror
          cases hrest : rest.mapM f with
          | error fault =>
              rw [hrest] at herror
              cases herror
              obtain ⟨other, hmem, hother⟩ := ih hrest
              exact ⟨other, List.mem_cons_of_mem _ hmem, hother⟩
          | ok values =>
              rw [hrest] at herror
              cases herror

theorem mapM_ok_iff {f : α → Except ε β} {items : List α} :
    (∃ results, items.mapM f = .ok results) ↔
      ∀ item ∈ items, ∃ result, f item = .ok result := by
  induction items with
  | nil => exact ⟨fun _ _ hitem => absurd hitem List.not_mem_nil, fun _ => ⟨[], rfl⟩⟩
  | cons item rest ih =>
      rw [List.forall_mem_cons, ← ih, List.mapM_cons]
      cases f item with
      | error fault => exact ⟨nofun, fun hboth => nomatch hboth.1⟩
      | ok first =>
          cases rest.mapM f with
          | error fault => exact ⟨nofun, fun hboth => nomatch hboth.2⟩
          | ok others => exact ⟨fun _ => ⟨⟨_, rfl⟩, ⟨_, rfl⟩⟩, fun _ => ⟨_, rfl⟩⟩

theorem mapM_flatMap (cut : α → List β) (f : β → Except ε γ)
    (items : List α) :
    (items.flatMap cut).mapM f =
      (items.mapM fun item => (cut item).mapM f).map List.flatten := by
  induction items with
  | nil => rfl
  | cons item rest ih =>
      rw [List.flatMap_cons, List.mapM_append, ih, List.mapM_cons]
      cases (cut item).mapM f with
      | error fault => rfl
      | ok first => cases rest.mapM fun item => (cut item).mapM f <;> rfl

end Except

section List

variable {α : Type}

theorem find?_eq_some_of_unique {p : α → Bool} {items : List α} {item : α}
    (hitem : item ∈ items) (hp : p item = true)
    (hunique : ∀ other ∈ items, p other = true → other = item) :
    items.find? p = some item := by
  cases hfind : items.find? p with
  | none => exact absurd hp (List.find?_eq_none.mp hfind item hitem)
  | some other =>
      rw [hunique other (List.mem_of_find?_eq_some hfind) (List.find?_some hfind)]

theorem insertIdx_length_append (front back : List α) (word : α) :
    (front ++ back).insertIdx front.length word = front ++ word :: back := by
  induction front with
  | nil => rfl
  | cons first rest ih =>
      rw [List.cons_append, List.length_cons, List.insertIdx_succ_cons, ih,
        List.cons_append]

theorem mem_take_of_getElem? {items : List α} {item : α} {index count : Nat}
    (hindex : items[index]? = some item) (hlt : index < count) :
    item ∈ items.take count := by
  have htaken : (items.take count)[index]? = some item := by
    rw [List.getElem?_take_of_lt hlt, hindex]
  exact List.mem_of_getElem? htaken

theorem mem_drop_of_getLast? {items : List α} {item : α}
    (hlast : items.getLast? = some item) {count : Nat}
    (hcount : count < items.length) (rest : List α) :
    item ∈ (items ++ rest).drop count := by
  rw [List.drop_append_of_le_length hcount.le]
  refine List.mem_append_left _ (List.mem_of_getLast? ?_)
  rw [List.getLast?_drop, if_neg (by omega), hlast]

theorem mem_intercalate {separator item : α} (hother : item ≠ separator)
    (pieces : List (List α)) :
    item ∈ [separator].intercalate pieces ↔ ∃ piece ∈ pieces, item ∈ piece := by
  induction pieces with
  | nil => simp
  | cons piece rest ih =>
      cases rest with
      | nil => simp
      | cons next rest =>
          rw [List.intercalate_cons_cons, List.append_assoc, List.mem_append,
            List.mem_append, ih, List.mem_singleton]
          simp [hother]

theorem getLast?_rtake (items : List α) {limit : Nat} (hroom : 0 < limit) :
    (items.rtake limit).getLast? = items.getLast? := by
  rw [List.rtake, List.getLast?_drop]
  split
  · next hshort =>
      have hempty : items = [] := List.eq_nil_of_length_eq_zero (by omega)
      rw [hempty]
      rfl
  · rfl

theorem rtake_concat_rtake (items : List α) (limit : Nat) (item : α) :
    (items.rtake limit ++ [item]).rtake limit = (items ++ [item]).rtake limit := by
  cases limit with
  | zero => rw [List.rtake_zero, List.rtake_zero]
  | succ limit =>
      have hagain : (items.rtake (limit + 1)).rtake limit = items.rtake limit := by
        simp only [List.rtake, List.length_drop, List.drop_drop]
        congr 1
        omega
      rw [List.rtake_concat_succ, List.rtake_concat_succ, hagain]

theorem destutter'_concat [DecidableEq α] (first : α) (items : List α) (last : α) :
    (items ++ [last]).destutter' (· ≠ ·) first =
      if (items.destutter' (· ≠ ·) first).getLast? = some last then
        items.destutter' (· ≠ ·) first
      else items.destutter' (· ≠ ·) first ++ [last] := by
  induction items generalizing first with
  | nil => by_cases hsame : first = last <;> simp [hsame]
  | cons second items ih =>
      by_cases hsame : first = second
      · have hstays : ¬ first ≠ second := not_not.mpr hsame
        rw [List.cons_append, List.destutter'_cons_neg _ hstays,
          List.destutter'_cons_neg _ hstays, ih]
      · -- Something follows the first item, and the last one is found there.
        have hlast : (first :: items.destutter' (· ≠ ·) second).getLast? =
            (items.destutter' (· ≠ ·) second).getLast? := by
          cases hkept : items.destutter' (· ≠ ·) second with
          | nil => exact absurd hkept (List.destutter'_ne_nil _ _)
          | cons third more => exact List.getLast?_cons_cons
        rw [List.cons_append, List.destutter'_cons_pos _ hsame,
          List.destutter'_cons_pos _ hsame, ih, hlast]
        split <;> rfl

end List

end PipeShell
