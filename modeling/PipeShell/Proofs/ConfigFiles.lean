import Mathlib.Data.List.TakeWhile
import PipeShell.Proofs.FileReaders
import PipeShell.Proofs.Settings

namespace PipeShell.Json

/-- Somewhere in the text stand `count` digits in a row, more than are read as a
number. -/
def LongRun (count : Nat) (text : List Char) : Prop :=
  Number.maxDigits < count ∧
    ∃ run, run <:+: text ∧ run.length = count ∧
      ∀ c ∈ run, Number.isAsciiDigit c = true

/-- The reader stopped inside the text, or the number it could not read stands in the
text. -/
def Within {α : Type} (text : List Char) : Reading α → Prop
  | .ok (_, after) => after.rest <:+ text
  | .error (.tooLong count) => LongRun count text
  | .error (.malformed _ _) => True

variable {α : Type} {text whole : List Char} {reading : Reading α} {cursor : Cursor}

theorem LongRun.of_suffix {count : Nat} (hrun : LongRun count text)
    (hsuffix : text <:+ whole) :
    LongRun count whole := by
  obtain ⟨hlong, run, hpart, hlength, hdigits⟩ := hrun
  exact ⟨hlong, run, hpart.trans hsuffix.isInfix, hlength, hdigits⟩

theorem Within.of_suffix (hwithin : Within text reading) (hsuffix : text <:+ whole) :
    Within whole reading := by
  match reading with
  | .ok (_, _) => exact List.IsSuffix.trans hwithin hsuffix
  | .error (.tooLong _) => exact LongRun.of_suffix hwithin hsuffix
  | .error (.malformed _ _) => trivial

theorem Within.error {β : Type} {fault : Fault}
    (hwithin : Within text (.error fault : Reading α)) :
    Within text (.error fault : Reading β) := by
  cases fault <;> exact hwithin

theorem advance_suffix (cursor : Cursor) (count : Nat) :
    (cursor.advance count).rest <:+ cursor.rest :=
  List.drop_suffix count cursor.rest

theorem skipSpace_suffix (cursor : Cursor) : cursor.skipSpace.rest <:+ cursor.rest :=
  advance_suffix cursor _

private theorem lowHalf_error {rest : List Char} {position : Nat} {fault : Fault}
    (herror : lowHalf rest position = .error fault) :
    ∃ defect place, fault = .malformed defect place := by
  unfold lowHalf at herror
  split at herror
  · split at herror
    · cases herror
    · split at herror
      · cases herror
        exact ⟨_, _, rfl⟩
      · cases herror
  · cases herror

private theorem unicodeEscape_error {rest : List Char} {position : Nat}
    {fault : Fault} (herror : unicodeEscape rest position = .error fault) :
    ∃ defect place, fault = .malformed defect place := by
  unfold unicodeEscape at herror
  split at herror
  · cases herror
    exact ⟨_, _, rfl⟩
  · split at herror
    · cases herror
      exact ⟨_, _, rfl⟩
    · split at herror
      · split at herror
        · next hlow =>
            cases herror
            exact lowHalf_error hlow
        · cases herror
        · cases herror
      · cases herror

private theorem textFrom_within (start fuel : Nat) (read : List Char)
    (cursor : Cursor) :
    Within cursor.rest (textFrom start fuel read cursor) := by
  fun_induction textFrom start fuel read cursor with
  | case1 => trivial
  | case2 => trivial
  | case3 => exact advance_suffix ..
  | case4 => trivial
  | case5 fuel read cursor digits hrest fault hescape =>
      obtain ⟨defect, place, rfl⟩ := unicodeEscape_error hescape
      trivial
  | case6 fuel read cursor digits hrest c count hescape ih =>
      exact ih.of_suffix (advance_suffix ..)
  | case7 => trivial
  | case8 fuel read cursor c rest hrest hunicode c' hescape ih =>
      exact ih.of_suffix (advance_suffix ..)
  | case9 => trivial
  | case10 fuel read cursor c rest hrest _ _ _ _ _ ih =>
      exact ih.of_suffix (advance_suffix ..)

theorem readText_within (cursor : Cursor) : Within cursor.rest (readText cursor) :=
  (textFrom_within ..).of_suffix (advance_suffix ..)

private theorem wholeDigits_run (rest : List Char) :
    wholeDigits rest <+: rest ∧
      (1 < (wholeDigits rest).length → ∀ c ∈ wholeDigits rest,
        Number.isAsciiDigit c = true) := by
  unfold wholeDigits
  split
  · exact ⟨by simp, fun h => absurd h (by simp)⟩
  · exact ⟨List.takeWhile_prefix _, fun _ c hc => List.mem_takeWhile_imp hc⟩

private theorem readNumber_within (cursor : Cursor) :
    Within cursor.rest (readNumber cursor) := by
  unfold readNumber
  extract_lets sign whole rest fraction exponent written after
  split
  · trivial
  · split
    · split
      · next hlong =>
          obtain ⟨hbegin, hdigits⟩ := wholeDigits_run (cursor.rest.drop sign.length)
          refine ⟨hlong, whole, hbegin.isInfix.trans (List.drop_suffix ..).isInfix,
            rfl, hdigits ?_⟩
          exact Nat.lt_trans (by decide) hlong
      · exact advance_suffix ..
    · split
      · exact advance_suffix ..
      · trivial

private theorem readConstant?_suffix {result : Json × Cursor}
    (hread : readConstant? cursor = some result) :
    result.2.rest <:+ cursor.rest := by
  obtain ⟨entry, _, rfl⟩ := Option.map_eq_some_iff.mp hread
  exact advance_suffix ..

section Nested

variable {fuel : Nat} (hvalue : ∀ cursor, Within cursor.rest (readValue fuel cursor))
  (hitems : ∀ read cursor, Within cursor.rest (readItems fuel read cursor))
  (hfields : ∀ read cursor, Within cursor.rest (readFields fuel read cursor))

include hitems hfields in
private theorem readValue_within_succ (cursor : Cursor) :
    Within cursor.rest (readValue (fuel + 1) cursor) := by
  have hinside : (cursor.advance 1).skipSpace.rest <:+ cursor.rest :=
    (skipSpace_suffix _).trans (advance_suffix ..)
  rw [readValue]
  split
  · have htext := readText_within cursor
    split
    · next hread => exact (hread ▸ htext).error
    · next hread =>
        rw [hread] at htext
        exact htext
  · dsimp only
    split
    · exact (advance_suffix ..).trans hinside
    · exact (hitems _ _).of_suffix hinside
  · dsimp only
    split
    · exact (advance_suffix ..).trans hinside
    · exact (hfields _ _).of_suffix hinside
  · split
    · next hread => exact readConstant?_suffix hread
    · exact readNumber_within cursor

include hvalue hitems in
private theorem readItems_within_succ (read : List Json) (cursor : Cursor) :
    Within cursor.rest (readItems (fuel + 1) read cursor) := by
  have hitem := hvalue cursor
  rw [readItems]
  split
  · next hread => exact (hread ▸ hitem).error
  · next item after hread =>
      rw [hread] at hitem
      have hafter : after.skipSpace.rest <:+ cursor.rest :=
        (skipSpace_suffix _).trans hitem
      dsimp only
      split
      · exact (advance_suffix ..).trans hafter
      · exact (hitems _ _).of_suffix
          ((skipSpace_suffix _).trans ((advance_suffix ..).trans hafter))
      · trivial

include hvalue hfields in
private theorem readFields_within_succ (read : List (String × Json))
    (cursor : Cursor) :
    Within cursor.rest (readFields (fuel + 1) read cursor) := by
  rw [readFields]
  split
  · have hkey := readText_within cursor
    split
    · next hread => exact (hread ▸ hkey).error
    · next key after hread =>
        rw [hread] at hkey
        have hafter : after.skipSpace.rest <:+ cursor.rest :=
          (skipSpace_suffix _).trans hkey
        dsimp only
        split
        · have hnext : (after.skipSpace.advance 1).skipSpace.rest <:+ cursor.rest :=
            (skipSpace_suffix _).trans ((advance_suffix ..).trans hafter)
          have hitem := (hvalue (after.skipSpace.advance 1).skipSpace).of_suffix
            hnext
          split
          · next hread => exact (hread ▸ hitem).error
          · next item last hread =>
              rw [hread] at hitem
              have hlast : last.skipSpace.rest <:+ cursor.rest :=
                (skipSpace_suffix _).trans hitem
              split
              · exact (advance_suffix ..).trans hlast
              · exact (hfields _ _).of_suffix
                  ((skipSpace_suffix _).trans ((advance_suffix ..).trans hlast))
              · trivial
        · trivial
  · trivial

end Nested

/-- The three readers at once, by induction on the bound that they share. -/
theorem readers_within (fuel : Nat) :
    (∀ cursor, Within cursor.rest (readValue fuel cursor)) ∧
      (∀ read cursor, Within cursor.rest (readItems fuel read cursor)) ∧
        ∀ read cursor, Within cursor.rest (readFields fuel read cursor) := by
  induction fuel with
  | zero =>
      refine ⟨?_, ?_, ?_⟩
      · intro cursor
        rw [readValue]
        trivial
      · intro read cursor
        rw [readItems]
        trivial
      · intro read cursor
        rw [readFields]
        trivial
  | succ fuel ih =>
      obtain ⟨hvalue, hitems, hfields⟩ := ih
      exact ⟨readValue_within_succ hitems hfields,
        readItems_within_succ hvalue hitems, readFields_within_succ hvalue hfields⟩

theorem longRun_of_parse {count : Nat}
    (hparse : parse text = .error (.tooLong count)) :
    LongRun count text := by
  unfold parse at hparse
  split at hparse
  · cases hparse
  · have hread := (readers_within (2 * text.length + 4)).1
      (Cursor.mk text 0).skipSpace
    split at hparse
    · next herror =>
        cases hparse
        rw [herror] at hread
        exact LongRun.of_suffix hread (skipSpace_suffix _)
    · dsimp only at hparse
      split at hparse <;> cases hparse

end PipeShell.Json

namespace PipeShell.Channel

variable {run text : List Char}

theorem eq_nil_of_prefix_newline {rest : List Char} (hline : '\n' ∉ run)
    (hbegin : run <+: '\n' :: rest) : run = [] := by
  rcases List.prefix_cons_iff.mp hbegin with hempty | ⟨_, rfl, _⟩
  · exact hempty
  · exact absurd List.mem_cons_self hline

private theorem prefix_of_prefix_unifyNewlines (hline : '\n' ∉ run)
    (hbegin : run <+: unifyNewlines text) :
    run <+: text := by
  fun_induction unifyNewlines text generalizing run with
  | case1 => exact hbegin
  | case2 rest ih => exact eq_nil_of_prefix_newline hline hbegin ▸ List.nil_prefix
  | case3 rest _ ih => exact eq_nil_of_prefix_newline hline hbegin ▸ List.nil_prefix
  | case4 c rest _ _ ih =>
      rcases List.prefix_cons_iff.mp hbegin with rfl | ⟨tail, rfl, htail⟩
      · exact List.nil_prefix
      · have hrest := ih (fun h => hline (List.mem_cons_of_mem c h)) htail
        exact List.prefix_cons_iff.mpr (.inr ⟨tail, rfl, hrest⟩)

private theorem infix_of_infix_unifyNewlines (hline : '\n' ∉ run)
    (hpart : run <:+: unifyNewlines text) :
    run <:+: text := by
  fun_induction unifyNewlines text with
  | case1 => exact hpart
  | case2 rest ih =>
      rcases List.infix_cons_iff.mp hpart with hbegin | hrest
      · exact eq_nil_of_prefix_newline hline hbegin ▸ List.nil_infix
      · exact (ih hrest).trans (List.suffix_append ['\r', '\n'] rest).isInfix
  | case3 rest _ ih =>
      rcases List.infix_cons_iff.mp hpart with hbegin | hrest
      · exact eq_nil_of_prefix_newline hline hbegin ▸ List.nil_infix
      · exact (ih hrest).trans (List.suffix_cons '\r' rest).isInfix
  | case4 c rest hpair hreturn ih =>
      rcases List.infix_cons_iff.mp hpart with hbegin | hrest
      · rw [← unifyNewlines.eq_4 _ _ hpair hreturn] at hbegin
        exact (prefix_of_prefix_unifyNewlines hline hbegin).isInfix
      · exact (ih hrest).trans (List.suffix_cons c rest).isInfix

private theorem longRun_of_unifyNewlines {count : Nat}
    (hrun : Json.LongRun count (unifyNewlines text)) :
    Json.LongRun count text := by
  obtain ⟨hlong, run, hpart, hlength, hdigits⟩ := hrun
  have hline : '\n' ∉ run := by
    intro hmem
    exact absurd (hdigits _ hmem) (by decide)
  exact ⟨hlong, run, infix_of_infix_unifyNewlines hline hpart, hlength, hdigits⟩

end PipeShell.Channel

namespace PipeShell.Text.Utf8

private theorem decode_encode (text : String) :
    decode (encode text) = .ok text.toList := by
  have htext : Decoder.start.text? (encode text) = some text.toList := by
    rw [encode_eq_flatMap]
    exact Decoder.text?_encodeChars rfl text.toList
  rw [Decoder.text?] at htext
  split at htext
  · cases htext
  · next last chars hfeed =>
      split at htext
      · next hlast =>
          cases htext
          simp only [decode, hfeed, bind, Except.bind,
            Decoder.finish_ok_iff.mpr hlast]
          rfl
      · cases htext

end PipeShell.Text.Utf8

namespace PipeShell.Config.Loader

/-- Loads a file into a loader, which stays as it is where that fails. -/
def reload (loader : Loader) (files : FileTree) (path : String) :
    Except Fault Unit × Loader :=
  match loadFile files path with
  | .ok loaded => (.ok (), loaded)
  | .error fault => (.error fault, loader)

/-- What reading a file lets out although it is no report of the loader. -/
inductive Escapes (files : FileTree) (path : String) : Fault → Prop where
  | undecodable {names : List String} {fault : Text.Utf8.Fault}
      (hfile : findFile files path = .ok names)
      (htext : Text.Utf8.decode (files.content names) = .error fault) :
      Escapes files path (.undecodable fault)
  | tooLong {names : List String} {text : List Char} {digits : Nat}
      (hfile : findFile files path = .ok names)
      (htext : Text.Utf8.decode (files.content names) = .ok text)
      (hparse : Json.parse (Channel.unifyNewlines text) = .error (.tooLong digits)) :
      Escapes files path (.badValue (Number.tooLongMessage digits))
  | nameTooLong (hfile : findFile files path = .error (.storage .nameTooLong)) :
      Escapes files path (.storage .nameTooLong)

variable {files : FileTree} {path : String}

private theorem findFile_error {fault : Fault}
    (herror : findFile files path = .error fault) :
    fault = .storage .nameTooLong ∨
      fault = .failure (Defect.fileMissing path).toFailure := by
  unfold findFile at herror
  split at herror
  · cases herror
    exact .inr rfl
  · split at herror <;> cases herror
    · exact .inl rfl
    · exact .inr rfl

private theorem loadData_cases (data : Json) :
    (∃ config : Config, config.validate = .ok () ∧
      loadData data = .ok (.given config)) ∨
      ∃ defect : Defect, loadData data = .error (.failure defect.toFailure) := by
  cases hdata : ofJson data with
  | ok config =>
      obtain ⟨_, hvalid, rfl⟩ := ofJson_eq_ok.mp hdata
      exact .inl ⟨_, hvalid, by simp [loadData, hdata, failing, Except.map]⟩
  | error defect =>
      exact .inr ⟨defect, by simp [loadData, hdata, failing, Except.map]⟩

theorem loadFile_of_findFile {names : List String}
    (hfile : findFile files path = .ok names) :
    loadFile files path =
      match Text.Utf8.decode (files.content names) with
      | .error fault => .error (.undecodable fault)
      | .ok text => (parseText (Channel.unifyNewlines text)).bind loadData := by
  unfold loadFile
  rw [hfile]
  rfl

private theorem loadFile_cases (files : FileTree) (path : String) :
    (∃ config : Config, config.validate = .ok () ∧
        loadFile files path = .ok (.given config)) ∨
      (∃ defect : Defect, loadFile files path = .error (.failure defect.toFailure)) ∨
        ∃ fault, Escapes files path fault ∧ loadFile files path = .error fault := by
  cases hfile : findFile files path with
  | error fault =>
      have hload : loadFile files path = .error fault := by
        unfold loadFile
        rw [hfile]
        rfl
      rcases findFile_error hfile with rfl | rfl
      · exact .inr (.inr ⟨_, .nameTooLong hfile, hload⟩)
      · exact .inr (.inl ⟨_, hload⟩)
  | ok names =>
      rw [loadFile_of_findFile hfile]
      cases htext : Text.Utf8.decode (files.content names) with
      | error fault => exact .inr (.inr ⟨_, .undecodable hfile htext, rfl⟩)
      | ok text =>
          simp only [parseText]
          split
          · next data _ =>
              rcases loadData_cases data with hloaded | hrefused
              · exact .inl hloaded
              · exact .inr (.inl hrefused)
          · next digits hparse =>
              exact .inr (.inr ⟨_, .tooLong hfile htext hparse, rfl⟩)
          · exact .inr (.inl ⟨_, rfl⟩)

private theorem Escapes.loadFile {fault : Fault}
    (hescapes : Escapes files path fault) :
    loadFile files path = .error fault := by
  cases hescapes with
  | undecodable hfile htext => rw [loadFile_of_findFile hfile, htext]
  | tooLong hfile htext hparse =>
      rw [loadFile_of_findFile hfile, htext]
      simp only [parseText, hparse]
      rfl
  | nameTooLong hfile =>
      unfold Loader.loadFile
      rw [hfile]
      rfl

private theorem Escapes.not_failure {fault : Fault}
    (hescapes : Escapes files path fault) (defect : Defect) :
    fault ≠ .failure defect.toFailure := by
  cases hescapes <;> exact fun h => nomatch h

private theorem not_escapes_of_encode {names : List String} {text : String}
    (hfile : findFile files path = .ok names)
    (hcontent : files.content names = Text.Utf8.encode text)
    (hshort : ∀ count, ¬ Json.LongRun count text.toList) (fault : Fault) :
    ¬ Escapes files path fault := by
  have hdecode : Text.Utf8.decode (files.content names) = .ok text.toList := by
    rw [hcontent, Text.Utf8.decode_encode]
  intro hescapes
  cases hescapes with
  | undecodable hfile' htext =>
      cases hfile.symm.trans hfile'
      cases hdecode.symm.trans htext
  | tooLong hfile' htext hparse =>
      cases hfile.symm.trans hfile'
      cases hdecode.symm.trans htext
      exact hshort _ (Channel.longRun_of_unifyNewlines
        (Json.longRun_of_parse hparse))
  | nameTooLong hfile' => cases hfile.symm.trans hfile'

/-- A file gives a loader valid settings or leaves it as it was. The failures that
are no report of the loader are exactly those of `Escapes`. A file that holds the
encoding of a text fails with a report only, unless the text has more digits in a row
than a number may have. -/
theorem reload_reports_or_escapes (loader : Loader) (files : FileTree)
    (path : String) :
    let answer := loader.reload files path
    (answer.1 = .ok () → answer.2.loaded = true ∧
      answer.2.config.validate = .ok ()) ∧
      (answer.1 ≠ .ok () → answer.2 = loader) ∧
      (∀ fault, Escapes files path fault ↔
        answer.1 = .error fault ∧ ∀ defect : Defect,
        fault ≠ .failure defect.toFailure) ∧
      ∀ names text, findFile files path = .ok names →
        files.content names = Text.Utf8.encode text →
        (∀ count, ¬ Json.LongRun count text.toList) →
          answer.1 = .ok () ∨ ∃ defect : Defect,
            answer.1 = .error (.failure defect.toFailure) := by
  rcases loadFile_cases files path with
    ⟨config, hvalid, hload⟩ | ⟨defect, hload⟩ | ⟨fault, hescapes, hload⟩
  · have hanswer : loader.reload files path =
        (.ok (), .given config) := by rw [reload, hload]
    rw [hanswer]
    refine ⟨fun _ => ⟨rfl, hvalid⟩, fun h => absurd rfl h, ?_, fun _ _ _ _ _ =>
      .inl rfl⟩
    intro fault
    refine ⟨fun hescapes => ?_, fun h => nomatch h.1⟩
    cases hload.symm.trans hescapes.loadFile
  · have hanswer : loader.reload files path =
        (.error (.failure defect.toFailure), loader) := by
      rw [reload, hload]
    rw [hanswer]
    refine ⟨(fun h => nomatch h), fun _ => rfl, ?_, fun _ _ _ _ _ =>
      .inr ⟨defect, rfl⟩⟩
    intro fault
    constructor
    · intro hescapes
      cases hload.symm.trans hescapes.loadFile
      exact absurd rfl (hescapes.not_failure defect)
    · rintro ⟨hfault, hother⟩
      cases hfault
      exact absurd rfl (hother defect)
  · have hanswer : loader.reload files path =
        (.error fault, loader) := by rw [reload, hload]
    rw [hanswer]
    refine ⟨(fun h => nomatch h), fun _ => rfl, ?_, ?_⟩
    · intro other
      refine ⟨fun hother => ?_, fun h => ?_⟩
      · cases hload.symm.trans hother.loadFile
        exact ⟨rfl, hescapes.not_failure⟩
      · cases h.1
        exact hescapes
    · intro names text hfile hcontent hshort
      exact absurd hescapes (not_escapes_of_encode hfile hcontent hshort fault)

def oneFile (content : List UInt8) : FileTree := ⟨[(["c"], .file content)]⟩

/-- An object that is not closed is reported. -/
theorem reload_reports_or_escapes_unclosed :
    let files := oneFile (Text.Utf8.encode "\x7b")
    findFile files "/c" = .ok ["c"] ∧ (new.reload files "/c").2 = new ∧
      ∃ defect : Defect, (new.reload files "/c").1 =
        .error (.failure defect.toFailure) := by
  intro files
  have hfile : findFile files "/c" = .ok ["c"] := by rfl
  have hshort : ∀ count, ¬ Json.LongRun count "\x7b".toList := by
    rintro count ⟨hlong, run, hpart, rfl, _⟩
    have hlength : run.length ≤ 1 := hpart.length_le
    exact absurd hlong (by simp only [Number.maxDigits]; omega)
  have hfails : (new.reload files "/c").1 ≠ .ok () := by
    intro hloads
    have hclosed : (new.reload files "/c").1.isOk = false := by decide +kernel
    rw [hloads] at hclosed
    cases hclosed
  obtain ⟨_, hkept, _, hreported⟩ := reload_reports_or_escapes new files "/c"
  exact ⟨hfile, hkept hfails,
    (hreported ["c"] "\x7b" hfile rfl hshort).resolve_left hfails⟩

/-- An octet that starts no character is let out. -/
theorem reload_stray_octet :
    (new.reload (oneFile [0xFF]) "/c").1 =
      .error (.undecodable ⟨.startByte, 0, [0xFF]⟩) ∧
      ∀ defect : Defect, (new.reload (oneFile [0xFF]) "/c").1 ≠
        .error (.failure defect.toFailure) := by
  have hanswer : (new.reload (oneFile [0xFF]) "/c").1 =
      .error (.undecodable ⟨.startByte, 0, [0xFF]⟩) := by rfl
  rw [hanswer]
  exact ⟨rfl, fun defect h => nomatch h⟩

end PipeShell.Config.Loader
