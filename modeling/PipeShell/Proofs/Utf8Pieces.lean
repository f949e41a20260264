import PipeShell.Text.Utf8

namespace PipeShell.Text.Utf8

theorem continues_iff {pending : List UInt8} {byte : UInt8} :
    continues pending byte = true ↔
      128 ≤ byte.toNat ∧ byte.toNat ≤ 191 ∧ (pending = [0xE0] → 160 ≤ byte.toNat) ∧
        (pending = [0xF0] → 144 ≤ byte.toNat) ∧
        (pending = [0xF4] → byte.toNat ≤ 143) ∧
          ∀ second, pending = [0xED, second] → second.toNat < 160 := by
  unfold continues
  split <;> simp_all [UInt8.le_iff_toNat_le, UInt8.lt_iff_toNat_lt, and_assoc]

private theorem sequenceLength_ofNat {n : Nat} (hbyte : n < 256) :
    sequenceLength (UInt8.ofNat n) =
      if n < 128 then some 1 else if n < 194 then none else if n < 224 then some 2
        else if n < 240 then some 3 else if n < 245 then some 4 else none := by
  simp only [sequenceLength, UInt8.lt_iff_toNat_lt, UInt8.toNat_ofNat',
    Nat.mod_eq_of_lt hbyte]
  rfl

namespace Decoder

variable {decoder other next last : Decoder} {byte : UInt8}
  {bytes front : List UInt8}
  {produced : Option Char} {chars before : List Char} {fault : Fault}

private theorem step_pending (hsame : decoder.pending = other.pending)
    (hstep : decoder.step byte = .ok (next, produced)) :
    ∃ next', other.step byte = .ok (next', produced) ∧
      next.pending = next'.pending := by
  obtain ⟨pending, position⟩ := decoder
  obtain ⟨pending', position'⟩ := other
  cases hsame
  cases pending with
  | nil =>
      simp only [step] at hstep ⊢
      split at hstep <;> cases hstep <;> exact ⟨_, rfl, rfl⟩
  | cons first more =>
      simp only [step] at hstep ⊢
      split at hstep
      · next hcontinues =>
          rw [if_pos hcontinues]
          split at hstep
          · next hlength =>
              cases hstep
              rw [if_pos hlength]
              exact ⟨_, rfl, rfl⟩
          · next hlength =>
              cases hstep
              rw [if_neg hlength]
              exact ⟨_, rfl, rfl⟩
      · cases hstep

private theorem step_length (hstep : decoder.step byte = .ok (next, produced)) :
    next.pending.length + produced.toList.length ≤ decoder.pending.length + 1 := by
  obtain ⟨pending, position⟩ := decoder
  cases pending with
  | nil =>
      simp only [step] at hstep
      split at hstep <;> cases hstep <;> simp
  | cons first more =>
      simp only [step] at hstep
      split at hstep
      · split at hstep <;> cases hstep <;> simp
      · cases hstep

theorem feed_cons_ok (hfeed : decoder.feed (byte :: bytes) = .ok (last, chars)) :
    ∃ next produced more, decoder.step byte = .ok (next, produced) ∧
      next.feed bytes = .ok (last, more) ∧ chars = produced.toList ++ more := by
  rw [feed] at hfeed
  split at hfeed
  · cases hfeed
  · next next produced hstep =>
      split at hfeed
      · cases hfeed
      · next hrest =>
          cases hfeed
          exact ⟨next, produced, _, hstep, hrest, rfl⟩

theorem feed_length (hfeed : decoder.feed bytes = .ok (last, chars)) :
    last.pending.length + chars.length ≤ decoder.pending.length + bytes.length := by
  induction bytes generalizing decoder chars with
  | nil =>
      cases hfeed
      simp
  | cons byte bytes ih =>
      obtain ⟨next, produced, more, hstep, hrest, rfl⟩ := feed_cons_ok hfeed
      have hfirst := step_length hstep
      have hmore := ih hrest
      simp only [List.length_append, List.length_cons]
      omega

theorem finish_ok_iff : decoder.finish = .ok () ↔ decoder.pending = [] := by
  unfold finish
  split
  · next hpending => simp [hpending]
  · next hpending => split <;> simp_all

/-- All the characters, unless the octets cannot be decoded or end too early. -/
def text? (decoder : Decoder) (bytes : List UInt8) : Option (List Char) :=
  match decoder.feed bytes with
  | .error _ => none
  | .ok (last, chars) => if last.pending = [] then some chars else none

theorem text?_nil : decoder.text? [] = if decoder.pending = [] then some []
    else none := rfl

theorem text?_cons_of_step (hstep : decoder.step byte = .ok (next, produced))
    (bytes : List UInt8) :
    decoder.text? (byte :: bytes) = (next.text? bytes).map
      (produced.toList ++ ·) := by
  unfold text?
  rw [feed, hstep]
  cases hrest : next.feed bytes with
  | error fault => simp only [hrest, Option.map_none]
  | ok fed =>
      simp only [hrest]
      split <;> rfl

theorem text?_cons_of_error (hstep : decoder.step byte = .error fault)
    (bytes : List UInt8) :
    decoder.text? (byte :: bytes) = none := by
  rw [text?, feed, hstep]

/-- Positions have no part in what is decoded. -/
theorem text?_of_pending (hsame : decoder.pending = other.pending)
    (bytes : List UInt8) :
    decoder.text? bytes = other.text? bytes := by
  induction bytes generalizing decoder other with
  | nil => rw [text?_nil, text?_nil, hsame]
  | cons byte bytes ih =>
      cases hstep : decoder.step byte with
      | ok result =>
          obtain ⟨next', hstep', hnext⟩ := step_pending hsame hstep
          rw [text?_cons_of_step hstep, text?_cons_of_step hstep', ih hnext]
      | error fault =>
          rw [text?_cons_of_error hstep]
          cases hother : other.step byte with
          | ok result =>
              obtain ⟨next', hstep', -⟩ := step_pending hsame.symm hother
              rw [hstep] at hstep'
              cases hstep'
          | error fault => rw [text?_cons_of_error hother]

theorem text?_append_of_feed (hfeed : decoder.feed front = .ok (next, before))
    (back : List UInt8) :
    decoder.text? (front ++ back) = (next.text? back).map (before ++ ·) := by
  induction front generalizing decoder before with
  | nil =>
      cases hfeed
      simp
  | cons byte front ih =>
      obtain ⟨first, produced, more, hstep, hrest, rfl⟩ := feed_cons_ok hfeed
      rw [List.cons_append, text?_cons_of_step hstep, ih hrest, Option.map_map]
      congr 1
      funext after
      exact (List.append_assoc ..).symm

theorem text?_append_of_error (hfeed : decoder.feed front = .error fault)
    (back : List UInt8) :
    decoder.text? (front ++ back) = none := by
  induction front generalizing decoder fault with
  | nil => cases hfeed
  | cons byte front ih =>
      rw [List.cons_append]
      cases hstep : decoder.step byte with
      | error fault => exact text?_cons_of_error hstep _
      | ok result =>
          rw [text?_cons_of_step hstep]
          rw [feed, hstep] at hfeed
          simp only at hfeed
          split at hfeed
          · next hrest => rw [ih hrest, Option.map_none]
          · cases hfeed

theorem text?_append (hfront : decoder.text? front = some before)
    (hnext : next.pending = []) (back : List UInt8) :
    decoder.text? (front ++ back) = (next.text? back).map (before ++ ·) := by
  rw [text?] at hfront
  split at hfront
  · cases hfront
  · next last chars hfeed =>
      split at hfront
      · next hlast =>
          cases hfront
          rw [text?_append_of_feed hfeed, text?_of_pending (hlast.trans hnext.symm)]
      · cases hfront

end Decoder

/-- Octets that may follow the pending ones, one after the other. -/
def Follow (pending : List UInt8) : List UInt8 → Prop
  | [] => True
  | byte :: rest => continues pending byte = true ∧ Follow (pending ++ [byte]) rest

namespace Decoder

variable {decoder : Decoder}

private theorem text?_tail {first : UInt8} {more tail : List UInt8}
    (hpending : decoder.pending = first :: more)
    (hfollow : Follow (first :: more) tail) (hsome : tail ≠ [])
    (hlength : sequenceLength first = some (more.length + 1 + tail.length)) :
    decoder.text? tail = some [assemble (first :: more ++ tail)] := by
  induction tail generalizing decoder more with
  | nil => exact absurd rfl hsome
  | cons byte tail ih =>
      obtain ⟨hcontinues, hrest⟩ := hfollow
      have hstep : decoder.step byte =
          if sequenceLength first = some (more.length + 2) then
            .ok (⟨[], decoder.position + 1⟩,
              some (assemble (first :: more ++ [byte])))
          else .ok (⟨first :: more ++ [byte], decoder.position + 1⟩, none) := by
        unfold step
        simp [hpending, hcontinues]
      cases tail with
      | nil =>
          have hwhole : sequenceLength first = some (more.length + 2) := hlength
          rw [if_pos hwhole] at hstep
          rw [text?_cons_of_step hstep]
          rfl
      | cons second tail =>
          have hlong : sequenceLength first ≠ some (more.length + 2) := by
            rw [hlength]
            simp only [List.length_cons, ne_eq, Option.some.injEq]
            omega
          have htail := @ih ⟨first :: (more ++ [byte]), decoder.position + 1⟩
            (more ++ [byte]) rfl hrest
            (by simp) (by
              rw [hlength]
              simp only [List.length_cons, List.length_append, List.length_nil,
                Option.some.injEq]
              omega)
          rw [if_neg hlong] at hstep
          rw [text?_cons_of_step hstep]
          simpa using htail

theorem text?_sequence (hpending : decoder.pending = []) {first : UInt8}
    {tail : List UInt8} {c : Char}
    (hlength : sequenceLength first = some (tail.length + 1))
    (hfollow : Follow [first] tail) (hchar : assemble (first :: tail) = c) :
    decoder.text? (first :: tail) = some [c] := by
  subst hchar
  cases tail with
  | nil =>
      have hstep : decoder.step first =
          .ok (⟨[], decoder.position + 1⟩, some (assemble [first])) := by
        unfold step
        simp only [hpending, hlength, List.length_nil, Nat.zero_add]
      rw [text?_cons_of_step hstep]
      rfl
  | cons second tail =>
      have hstep : decoder.step first =
          .ok (⟨[first], decoder.position + 1⟩, none) := by
        unfold step
        simp only [hpending, hlength, List.length_cons]
      have htail := @text?_tail ⟨[first], decoder.position + 1⟩ first []
        (second :: tail) rfl hfollow
        (by simp) (by rw [hlength, Nat.add_comm]; rfl)
      rw [text?_cons_of_step hstep, htail]
      rfl

theorem text?_encodeChar (hpending : decoder.pending = []) (c : Char) :
    decoder.text? (String.utf8EncodeChar c) = some [c] := by
  obtain ⟨v, hv⟩ : ∃ v, c.val.toNat = v := ⟨_, rfl⟩
  -- The gap between the two ranges is what a second octet after 0xED is checked for.
  have hvalid : v < 55296 ∨ 57343 < v ∧ v < 1114112 := hv ▸ c.valid
  have hc : Char.ofNat v = c := hv ▸ Char.ofNat_toNat c
  simp only [String.utf8EncodeChar, hv]
  split
  · apply text?_sequence hpending
    · rw [sequenceLength_ofNat (by omega), if_pos (by omega)]
      rfl
    · trivial
    · simp only [assemble, UInt8.toNat_ofNat', ← hc]
      exact congrArg Char.ofNat (by omega)
  split
  · apply text?_sequence hpending
    · rw [sequenceLength_ofNat (by omega), if_neg (by omega), if_neg (by omega),
        if_pos (by omega)]
      rfl
    · refine ⟨continues_iff.mpr ?_, trivial⟩
      simp [← UInt8.toNat_inj]
      omega
    · simp only [assemble, payload, UInt8.toNat_ofNat', ← hc]
      exact congrArg Char.ofNat (by omega)
  split
  · apply text?_sequence hpending
    · rw [sequenceLength_ofNat (by omega), if_neg (by omega), if_neg (by omega),
        if_neg (by omega), if_pos (by omega)]
      rfl
    · refine ⟨continues_iff.mpr ?_, continues_iff.mpr ?_, trivial⟩
      · simp [← UInt8.toNat_inj]
        omega
      · simp [← UInt8.toNat_inj]
        refine ⟨by omega, by omega, ?_⟩
        intro second hfirst hsecond
        omega
    · simp only [assemble, payload, UInt8.toNat_ofNat', ← hc]
      exact congrArg Char.ofNat (by omega)
  · apply text?_sequence hpending
    · rw [sequenceLength_ofNat (by omega), if_neg (by omega), if_neg (by omega),
        if_neg (by omega), if_neg (by omega), if_pos (by omega)]
      rfl
    · refine ⟨continues_iff.mpr ?_, continues_iff.mpr ?_, continues_iff.mpr ?_,
        trivial⟩
      · simp [← UInt8.toNat_inj]
        omega
      · simp [← UInt8.toNat_inj]
        refine ⟨by omega, by omega, ?_⟩
        intro second hfirst
        omega
      · simp [← UInt8.toNat_inj]
        omega
    · simp only [assemble, payload, UInt8.toNat_ofNat', ← hc]
      exact congrArg Char.ofNat (by omega)

theorem text?_encodeChars (hpending : decoder.pending = []) (chars : List Char) :
    decoder.text? (chars.flatMap String.utf8EncodeChar) = some chars := by
  induction chars with
  | nil => rw [List.flatMap_nil, text?_nil, if_pos hpending]
  | cons c chars ih =>
      rw [List.flatMap_cons, text?_append (text?_encodeChar hpending c) hpending, ih]
      rfl

end Decoder

variable {decoder : Decoder} {bytes : List UInt8} {chars : List Char}

private theorem toList_loop (bytes : ByteArray) (index : Nat) (taken : List UInt8) :
    ByteArray.toList.loop bytes index taken = taken.reverse ++
      bytes.data.toList.drop index := by
  fun_induction ByteArray.toList.loop bytes index taken with
  | case1 index taken hindex ih =>
      have hlength : index < bytes.data.toList.length := hindex
      have hget : bytes.get! index = bytes.data.toList[index] :=
        getElem!_pos bytes.data index hindex
      rw [ih, List.drop_eq_getElem_cons hlength, hget, List.reverse_cons,
        List.append_assoc]
      rfl
  | case2 index taken hindex =>
      rw [List.drop_of_length_le (by simpa using hindex), List.append_nil]

theorem encode_eq_flatMap (text : String) :
    encode text = text.toList.flatMap String.utf8EncodeChar := by
  rw [encode, String.toUTF8_eq_toByteArray, ← String.utf8Encode_toList,
    List.utf8Encode, ByteArray.toList, toList_loop, List.toList_data_toByteArray]
  rfl

namespace Decoder

theorem text?_append_encode (hchars : decoder.text? bytes = some chars)
    (text : String) :
    decoder.text? (bytes ++ encode text) = some (chars ++ text.toList) := by
  have hmore : start.text? (encode text) = some text.toList := by
    rw [encode_eq_flatMap]
    exact text?_encodeChars rfl text.toList
  have hpending : start.pending = [] := rfl
  rw [text?_append hchars hpending, hmore]
  rfl

theorem getLast?_newline (hchars : decoder.text? bytes = some chars)
    (hlast : bytes.getLast? = some 10) : chars.getLast? = some '\n' := by
  obtain ⟨front, rfl⟩ := List.getLast?_eq_some_iff.mp hlast
  cases hfeed : decoder.feed front with
  | error fault =>
      rw [text?_append_of_error hfeed] at hchars
      cases hchars
  | ok fed =>
      obtain ⟨next, before⟩ := fed
      rw [text?_append_of_feed hfeed] at hchars
      -- A line feed stands for itself, and continues no sequence.
      have hnext : next.text? [10] = some ['\n'] ∨ next.text? [10] = none := by
        cases hpending : next.pending with
        | nil => exact .inl (text?_sequence hpending rfl trivial rfl)
        | cons first more =>
            have hstep : next.step 10 = .error (next.fault .continuationByte) := by
              unfold step
              rw [hpending]
              simp only
              rw [if_neg (by rw [continues_iff]; simp)]
            exact .inr (text?_cons_of_error hstep _)
      rcases hnext with hnext | hnext
      · rw [hnext] at hchars
        cases hchars
        simp
      · rw [hnext] at hchars
        cases hchars

end Decoder

end PipeShell.Text.Utf8
