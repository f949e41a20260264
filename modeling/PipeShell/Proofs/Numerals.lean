import Mathlib.Data.List.Induction
import Mathlib.Data.Nat.Digits.Defs
import PipeShell.Proofs.HistoryNumbers
import PipeShell.Schema.Conversion

namespace PipeShell

namespace Number

def signs : List (List Char) := [[], ['+'], ['-']]

def Digits (text : List Char) : Prop :=
  text ≠ [] ∧ ∀ c ∈ text, c.isDigit = true

/-- The sum of the digits, each weighted by its place. -/
def placeValue (digits : List Char) : Nat :=
  Nat.ofDigits 10 (digits.reverse.map fun c => c.toNat - '0'.toNat)

def denoted (sign digits : List Char) : Int :=
  if sign = ['-'] then -(placeValue digits : Int) else placeValue digits

/-- Digits with at most one point among them, and the digits on either side of it. -/
inductive Mantissa : (text whole fraction : List Char) → Prop
  | whole {digits : List Char} : Digits digits → Mantissa digits digits []
  | point {whole fraction : List Char} :
  Digits whole → (∀ c ∈ fraction, c.isDigit = true) →
      Mantissa (whole ++ '.' :: fraction) whole fraction
  | fraction {digits : List Char} :
  Digits digits → Mantissa ('.' :: digits) [] digits

/-- An exponent that may be left out, and its value. -/
inductive Exponent : List Char → Int → Prop
  | absent : Exponent [] 0
  | present {mark : Char} {sign digits : List Char} :
  mark ∈ ['e', 'E'] → sign ∈ signs →
      Digits digits → Exponent (mark :: (sign ++ digits)) (denoted sign digits)

theorem isAsciiDigit_eq (c : Char) : isAsciiDigit c = c.isDigit := by
  rw [Bool.eq_iff_iff]
  simp [isAsciiDigit, Char.isDigit, Char.le_def]

theorem digits_iff {text : List Char} :
    Digits text ↔ (text.isEmpty || !text.all isAsciiDigit) = false := by
  simp [Digits, isAsciiDigit_eq]

theorem natOfDigits_eq_placeValue (digits : List Char) :
    natOfDigits digits = placeValue digits := by
  induction digits using List.reverseRecOn with
  | nil => rfl
  | append_singleton digits c ih =>
      have hread : natOfDigits (digits ++ [c]) = 10 * natOfDigits digits +
          digitValue c := by
        simp [natOfDigits]
      have hplace : placeValue (digits ++ [c]) = digitValue c + 10 * placeValue
          digits := by
        simp [placeValue, digitValue, Nat.ofDigits_cons]
      omega

private theorem placeValue_zeros_append (zeros : Nat) (digits : List Char) :
    placeValue (List.replicate zeros '0' ++ digits) = placeValue digits := by
  simp [placeValue, Nat.ofDigits_append_replicate_zero]

private theorem placeValue_toDigits (number : Nat) :
    placeValue (Nat.toDigits 10 number) = number := by
  rw [← natOfDigits_eq_placeValue]
  exact Nat.ofDigitChars_ten_toDigits

theorem signed_eq_denoted (sign digits : List Char) :
    signed (decide (sign = ['-'])) (natOfDigits digits) = denoted sign digits := by
  rw [natOfDigits_eq_placeValue]
  simp [signed, denoted]

theorem splitSign_append {sign rest : List Char} (hsign : sign ∈ signs)
    (hrest : ∀ c ∈ rest.head?, c ≠ '+' ∧ c ≠ '-') :
    splitSign (sign ++ rest) = (decide (sign = ['-']), rest) := by
  simp only [signs, List.mem_cons, List.not_mem_nil, or_false] at hsign
  obtain rfl | rfl | rfl := hsign
  · cases rest with
    | nil => rfl
    | cons c rest =>
        obtain ⟨hplus, hminus⟩ := hrest c rfl
        simp [splitSign, hplus, hminus]
  · rfl
  · rfl

theorem exists_sign (text : List Char) :
    ∃ sign ∈ signs, text = sign ++ (splitSign text).2 ∧
      (splitSign text).1 = decide (sign = ['-']) := by
  unfold splitSign
  split
  · exact ⟨['+'], by simp [signs], rfl, rfl⟩
  · exact ⟨['-'], by simp [signs], rfl, rfl⟩
  · exact ⟨[], by simp [signs], rfl, rfl⟩

private theorem ne_sign_of_isDigit {c : Char} (hc : c.isDigit = true) :
    c ≠ '+' ∧ c ≠ '-' := by
  constructor
  · rintro rfl
    exact absurd hc (by decide)
  · rintro rfl
    exact absurd hc (by decide)

namespace Digits

variable {digits : List Char}

theorem head_append_ne_sign (hdigits : Digits digits) (tail : List Char) :
    ∀ c ∈ (digits ++ tail).head?, c ≠ '+' ∧ c ≠ '-' := by
  intro c hc
  cases digits with
  | nil => exact absurd rfl hdigits.1
  | cons first digits =>
      cases hc
      exact ne_sign_of_isDigit (hdigits.2 _ List.mem_cons_self)

theorem head_ne_sign (hdigits : Digits digits) :
    ∀ c ∈ digits.head?, c ≠ '+' ∧ c ≠ '-' := by
  simpa using hdigits.head_append_ne_sign []

end Digits

private theorem readInteger_ok_iff {text : List Char} {number : Int} :
    readInteger text = .ok number ↔
      ∃ sign ∈ signs, ∃ digits, text = sign ++ digits ∧ Digits digits ∧
        digits.length ≤ maxDigits ∧ number = denoted sign digits := by
  constructor
  · intro hread
    obtain ⟨sign, hsign, htext, hminus⟩ := exists_sign text
    simp only [readInteger] at hread
    split at hread
    · cases hread
    split at hread
    · cases hread
    next hdigits hlength =>
      rw [Bool.not_eq_true, ← digits_iff] at hdigits
      refine ⟨sign, hsign, _, htext, hdigits, Nat.not_lt.mp hlength, ?_⟩
      rw [hminus, signed_eq_denoted] at hread
      exact (Except.ok.inj hread).symm
  · rintro ⟨sign, hsign, digits, rfl, hdigits, hlength, rfl⟩
    simp only [readInteger, splitSign_append hsign hdigits.head_ne_sign,
      digits_iff.mp hdigits]
    rw [if_neg (by simp), if_neg (Nat.not_lt.mpr hlength), signed_eq_denoted]

private theorem readExponent_iff {text : List Char} {exponent : Int} :
    readExponent text = some exponent ↔ Exponent text exponent := by
  constructor
  · intro hread
    cases text with
    | nil =>
        cases hread
        exact .absent
    | cons mark rest =>
        obtain ⟨sign, hsign, hrest, hminus⟩ := exists_sign rest
        simp only [readExponent] at hread
        split at hread
        case isFalse => exact nomatch hread
        case isTrue hmark =>
          split at hread
          · exact nomatch hread
          next hdigits =>
            rw [Bool.not_eq_true, ← digits_iff] at hdigits
            rw [hminus, signed_eq_denoted] at hread
            cases hread
            rw [hrest]
            have hpresent : Exponent (mark :: (sign ++ (splitSign rest).2)) _ :=
              .present (by simpa using hmark) hsign hdigits
            rwa [← hrest] at hpresent ⊢
  · intro hexponent
    cases hexponent with
    | absent => rfl
    | present hmark hsign hdigits =>
        simp only [readExponent, splitSign_append hsign hdigits.head_ne_sign,
          digits_iff.mp hdigits]
        rw [if_pos (by simpa using hmark), if_neg (by simp), signed_eq_denoted]

theorem Exponent.head_stops {text : List Char} {exponent : Int}
    (htext : Exponent text exponent) :
    ∀ c ∈ text.head?, c.isDigit = false ∧ c ≠ '.' := by
  cases htext with
  | absent => simp
  | present hmark =>
      intro c hc
      cases hc
      simp only [List.mem_cons, List.not_mem_nil, or_false] at hmark
      obtain rfl | rfl := hmark <;> decide

private theorem span_digits {digits rest : List Char}
    (hdigits : ∀ c ∈ digits, c.isDigit = true)
    (hrest : ∀ c ∈ rest.head?, c.isDigit = false) :
    (digits ++ rest).takeWhile isAsciiDigit = digits ∧
      (digits ++ rest).dropWhile isAsciiDigit = rest := by
  have hall : ∀ c ∈ digits, isAsciiDigit c = true := by
    simpa [isAsciiDigit_eq] using hdigits
  rw [List.takeWhile_append_of_pos hall, List.dropWhile_append_of_pos hall]
  cases rest with
  | nil => simp
  | cons c rest =>
      have hc : isAsciiDigit c = false := (isAsciiDigit_eq c).trans (hrest c rfl)
      simp [hc]

/-- The digits after a point, if there is one, and what follows them. -/
def pastPoint : List Char → List Char × List Char
  | '.' :: after => (after.takeWhile isAsciiDigit, after.dropWhile isAsciiDigit)
  | rest => ([], rest)

private theorem readDecimal?_eq (text : List Char) :
    readDecimal? text =
      let body := (splitSign text).2
      let whole := body.takeWhile isAsciiDigit
      let past := pastPoint (body.dropWhile isAsciiDigit)
      if whole.isEmpty && past.1.isEmpty then none
      else (readExponent past.2).map fun exponent =>
        ⟨(splitSign text).1, natOfDigits (whole ++ past.1),
          exponent - past.1.length⟩ := by
  simp only [readDecimal?]
  generalize (splitSign text).2.dropWhile isAsciiDigit = rest
  split
  · simp only [pastPoint, Option.map]
    split
    · rfl
    · split <;> simp only [*]
  · next hrest =>
      simp only [pastPoint.eq_2 _ hrest, Option.map]
      split
      · rfl
      · split <;> simp only [*]

theorem isDigit_of_mem_takeWhile {text : List Char} {c : Char}
    (hc : c ∈ text.takeWhile isAsciiDigit) : c.isDigit = true :=
  (isAsciiDigit_eq c).symm.trans (List.all_eq_true.mp List.all_takeWhile c hc)

private theorem exists_mantissa {whole rest : List Char}
    (hwhole : ∀ c ∈ whole, c.isDigit = true)
    (hsome : whole ≠ [] ∨ (pastPoint rest).1 ≠ []) :
    ∃ mantissa, Mantissa mantissa whole (pastPoint rest).1 ∧
      whole ++ rest = mantissa ++ (pastPoint rest).2 := by
  unfold pastPoint at hsome ⊢
  split at hsome
  · next after =>
      cases whole with
      | nil =>
          have hfraction : Digits (after.takeWhile isAsciiDigit) :=
            ⟨hsome.resolve_left (by simp), fun _ => isDigit_of_mem_takeWhile⟩
          exact ⟨_, .fraction hfraction, by simp⟩
      | cons c whole =>
          exact ⟨_, .point ⟨List.cons_ne_nil c whole, hwhole⟩ fun _ =>
            isDigit_of_mem_takeWhile, by simp⟩
  · next hrest =>
      exact ⟨whole, .whole ⟨hsome.resolve_right (by simp), hwhole⟩, rfl⟩

namespace Mantissa

variable {mantissa whole fraction : List Char}

private theorem ne_nil (hmantissa : Mantissa mantissa whole fraction) :
    whole ≠ [] ∨ fraction ≠ [] := by
  cases hmantissa with
  | whole hdigits => exact .inl hdigits.1
  | point hwhole => exact .inl hwhole.1
  | fraction hdigits => exact .inr hdigits.1

private theorem head_ne_sign (hmantissa : Mantissa mantissa whole fraction)
    (tail : List Char) :
    ∀ c ∈ (mantissa ++ tail).head?, c ≠ '+' ∧ c ≠ '-' := by
  intro c hc
  cases hmantissa with
  | whole hdigits => exact hdigits.head_append_ne_sign tail c hc
  | point hwhole =>
      rw [List.append_assoc] at hc
      exact hwhole.head_append_ne_sign _ c hc
  | fraction =>
      cases hc
      decide

theorem spans (hmantissa : Mantissa mantissa whole fraction) {tail : List Char}
    (htail : ∀ c ∈ tail.head?, c.isDigit = false ∧ c ≠ '.') :
    (mantissa ++ tail).takeWhile isAsciiDigit = whole ∧
      pastPoint ((mantissa ++ tail).dropWhile isAsciiDigit) = (fraction, tail) := by
  have hstop : ∀ c ∈ tail.head?, c.isDigit = false := fun c hc => (htail c hc).1
  have hpoint (digits : List Char) (hdigits : ∀ c ∈ digits, c.isDigit = true) :
      pastPoint ('.' :: (digits ++ tail)) = (digits, tail) := by
    obtain ⟨htake, hdrop⟩ := span_digits hdigits hstop
    simp only [pastPoint, htake, hdrop]
  cases hmantissa with
  | whole hdigits =>
      obtain ⟨htake, hdrop⟩ := span_digits hdigits.2 hstop
      refine ⟨htake, ?_⟩
      rw [hdrop]
      apply pastPoint.eq_2
      intro after htail'
      rw [htail'] at htail
      exact (htail '.' rfl).2 rfl
  | point hwhole hfraction =>
      have hdot : ∀ c ∈ ('.' :: (fraction ++ tail)).head?, c.isDigit = false := by
        intro c hc
        cases hc
        decide
      obtain ⟨htake, hdrop⟩ := span_digits hwhole.2 hdot
      rw [List.append_assoc, List.cons_append, htake, hdrop]
      exact ⟨rfl, hpoint fraction hfraction⟩
  | fraction hdigits => exact ⟨rfl, hpoint fraction hdigits.2⟩

end Mantissa

private theorem readDecimal?_iff {text : List Char} {decimal : Decimal} :
    readDecimal? text = some decimal ↔
      ∃ sign ∈ signs, ∃ mantissa whole fraction tail exponent,
        text = sign ++ (mantissa ++ tail) ∧ Mantissa mantissa whole fraction ∧
          Exponent tail exponent ∧
          decimal = ⟨decide (sign = ['-']), placeValue (whole ++ fraction),
            exponent - fraction.length⟩ := by
  constructor
  · intro hread
    obtain ⟨sign, hsign, htext, hminus⟩ := exists_sign text
    simp only [readDecimal?_eq] at hread
    split at hread
    case isTrue => exact nomatch hread
    case isFalse hsome =>
      obtain ⟨exponent, hexponent, rfl⟩ := Option.map_eq_some_iff.mp hread
      obtain ⟨mantissa, hmantissa, hbody⟩ :=
        exists_mantissa (fun _ => isDigit_of_mem_takeWhile)
          (by simpa [imp_iff_not_or] using hsome)
      refine ⟨sign, hsign, mantissa, _, _, _, exponent, ?_, hmantissa,
        readExponent_iff.mp hexponent, ?_⟩
      · rw [← hbody, List.takeWhile_append_dropWhile]
        exact htext
      · rw [hminus, natOfDigits_eq_placeValue]
  · rintro ⟨sign, hsign, mantissa, whole, fraction, tail, exponent, rfl, hmantissa,
      hexponent, rfl⟩
    obtain ⟨htake, hpast⟩ := hmantissa.spans hexponent.head_stops
    simp only [readDecimal?_eq, splitSign_append hsign (hmantissa.head_ne_sign tail),
      htake, hpast, readExponent_iff.mpr hexponent, natOfDigits_eq_placeValue,
      Option.map_some]
    rw [if_neg (by simpa [imp_iff_not_or] using hmantissa.ne_nil)]

end Number

namespace Conversion

open Number

variable {raw : String} {value : Value} {fault : Fault}

theorem toInt_ok_iff :
    toInt raw = .ok value ↔
      ∃ sign ∈ signs, ∃ digits, raw.toList = sign ++ digits ∧ Digits digits ∧
        digits.length ≤ maxDigits ∧ value = .int (denoted sign digits) := by
  constructor
  · intro hvalue
    unfold toInt at hvalue
    split at hvalue
    · next number hread =>
        cases hvalue
        obtain ⟨sign, hsign, digits, htext, hdigits, hlength, rfl⟩ :=
          readInteger_ok_iff.mp hread
        exact ⟨sign, hsign, digits, htext, hdigits, hlength, rfl⟩
    · exact nomatch hvalue
    · exact nomatch hvalue
  · rintro ⟨sign, hsign, digits, htext, hdigits, hlength, rfl⟩
    rw [toInt, readInteger_ok_iff.mpr
      ⟨sign, hsign, digits, htext, hdigits, hlength, rfl⟩]

private theorem toFloat_ok_iff :
    toFloat raw = .ok value ↔
      ∃ sign ∈ signs, ∃ mantissa whole fraction tail exponent,
        raw.toList = sign ++ (mantissa ++ tail) ∧ Mantissa mantissa whole fraction ∧
          Exponent tail exponent ∧
          value = .float (.ofDecimal
            ⟨decide (sign = ['-']), placeValue (whole ++ fraction),
              exponent - fraction.length⟩) := by
  constructor
  · intro hvalue
    unfold toFloat at hvalue
    split at hvalue
    · next decimal hread =>
        cases hvalue
        obtain ⟨sign, hsign, mantissa, whole, fraction, tail, exponent, htext,
          hmantissa, hexponent, rfl⟩ := readDecimal?_iff.mp hread
        exact ⟨sign, hsign, mantissa, whole, fraction, tail, exponent, htext,
          hmantissa, hexponent, rfl⟩
    · exact nomatch hvalue
  · rintro ⟨sign, hsign, mantissa, whole, fraction, tail, exponent, htext, hmantissa,
      hexponent, rfl⟩
    rw [toFloat, readDecimal?_iff.mpr ⟨sign, hsign, mantissa, whole, fraction, tail,
      exponent, htext, hmantissa, hexponent, rfl⟩]

/-- The text of a whole number with zeros before its digits. -/
def padded (sign : String) (zeros : Nat) (number : Int) : String :=
  sign ++ String.ofList (List.replicate zeros '0') ++ toString number.natAbs

/-- The signs that a number may be written with. -/
def signsOf (number : Int) : List String :=
  if number < 0 then ["-"] else ["", "+"]

private theorem toList_padded (sign : String) (zeros : Nat) (number : Int) :
    (padded sign zeros number).toList =
      sign.toList ++ (List.replicate zeros '0' ++
        Nat.toDigits 10 number.natAbs) := by
  simp [padded]

private theorem digits_padded (zeros number : Nat) :
    Digits (List.replicate zeros '0' ++ Nat.toDigits 10 number) := by
  constructor
  · simp [Nat.toDigits_ne_nil]
  · intro c hc
    rcases List.mem_append.mp hc with hzero | hdigit
    · rw [List.eq_of_mem_replicate hzero]
      rfl
    · exact Nat.isDigit_of_mem_toDigits (by decide) (by decide) hdigit

private theorem denoted_padded {number : Int} {sign : String}
    (hsign : sign ∈ signsOf number) (zeros : Nat) :
    sign.toList ∈ signs ∧
      denoted sign.toList (List.replicate zeros '0' ++
        Nat.toDigits 10 number.natAbs) = number := by
  simp only [denoted, placeValue_zeros_append, placeValue_toDigits]
  unfold signsOf at hsign
  split at hsign
  · next hnegative =>
      cases List.mem_singleton.mp hsign
      rw [if_pos (by decide)]
      exact ⟨by decide, by omega⟩
  · next hnonnegative =>
      rcases List.mem_cons.mp hsign with rfl | hplus
      · rw [if_neg (by decide)]
        exact ⟨by decide, by omega⟩
      · cases List.mem_singleton.mp hplus
        rw [if_neg (by decide)]
        exact ⟨by decide, by omega⟩

private theorem toInt_padded {number : Int} {sign : String}
    (hsign : sign ∈ signsOf number) {zeros : Nat}
    (hlength : zeros + (toString number.natAbs).length ≤ maxDigits) :
    toInt (padded sign zeros number) = .ok (.int number) := by
  obtain ⟨hmem, hdenoted⟩ := denoted_padded hsign zeros
  apply toInt_ok_iff.mpr
  refine ⟨_, hmem, _, toList_padded sign zeros number, digits_padded zeros _, ?_,
    congrArg Value.int hdenoted.symm⟩
  simpa [← String.length_toList] using hlength

private theorem toString_eq_padded (number : Int) :
    ∃ sign ∈ signsOf number, toString number = padded sign 0 number := by
  cases number with
  | ofNat n =>
      have htext : toString (Int.ofNat n) = toString n := rfl
      have hsign : ¬ Int.ofNat n < 0 := Int.not_lt.mpr (Int.natCast_nonneg n)
      exact ⟨"", by simp only [signsOf, if_neg hsign, List.mem_cons_self],
        htext.trans (by simp [padded])⟩
  | negSucc n => exact ⟨"-", by simp [signsOf, Int.negSucc_lt_zero], rfl⟩

private theorem toInt_refused (h : toInt raw = .error fault) :
    ∃ message, fault = .badValue message := by
  unfold toInt at h
  split at h
  · exact nomatch h
  · exact ⟨_, (Except.error.inj h).symm⟩
  · exact ⟨_, (Except.error.inj h).symm⟩

private theorem toFloat_refused (h : toFloat raw = .error fault) :
    ∃ message, fault = .badValue message := by
  unfold toFloat at h
  split at h
  · exact nomatch h
  · exact ⟨_, (Except.error.inj h).symm⟩

/-- Whole numbers and decimal fractions are read from exactly their numerals, each as
the number it denotes, and every other text is refused as a bad value. -/
theorem scalar_numerals (parsers : Parsers) (enumeration : Option Enumeration)
    (parser : Option String) :
    (∀ (raw : String) (value : Value),
      scalar parsers .int enumeration parser raw = .ok value ↔
        ∃ sign ∈ signs, ∃ digits, raw.toList = sign ++ digits ∧ Digits digits ∧
          digits.length ≤ 4300 ∧ value = .int (denoted sign digits)) ∧
    (∀ (number : Int) (zeros : Nat), ∀ sign ∈ signsOf number,
      zeros + (toString number.natAbs).length ≤ 4300 →
        scalar parsers .int enumeration parser (padded sign zeros number) =
          .ok (.int number)) ∧
    (∀ number : Int, (toString number.natAbs).length ≤ 4300 →
      scalar parsers .int enumeration parser (toString number) = .ok (.int number)) ∧
    (∀ (raw : String) (value : Value),
      scalar parsers .float enumeration parser raw = .ok value ↔
        ∃ sign ∈ signs, ∃ mantissa whole fraction tail exponent,
          raw.toList = sign ++ (mantissa ++ tail) ∧
            Mantissa mantissa whole fraction ∧
            Exponent tail exponent ∧
            value = .float (.ofDecimal
              ⟨decide (sign = ['-']), placeValue (whole ++ fraction),
                exponent - fraction.length⟩)) ∧
    ∀ kind ∈ [Schema.Kind.int, Schema.Kind.float], ∀ raw : String,
      (∃ value, scalar parsers kind enumeration parser raw = .ok value) ∨
        ∃ message, scalar parsers kind enumeration parser raw =
          .error (.badValue message) := by
  refine ⟨fun raw value => toInt_ok_iff, ?_, ?_, fun raw value => toFloat_ok_iff, ?_⟩
  · intro number zeros sign hsign hlength
    exact toInt_padded hsign hlength
  · intro number hlength
    obtain ⟨sign, hsign, htext⟩ := toString_eq_padded number
    rw [htext]
    exact toInt_padded hsign (by rw [Nat.zero_add]; exact hlength)
  · intro kind hkind raw
    cases hread : scalar parsers kind enumeration parser raw with
    | ok value => exact .inl ⟨value, rfl⟩
    | error fault =>
        right
        have hbad : ∃ message, fault = .badValue message := by
          rcases List.mem_cons.mp hkind with rfl | hfloat
          · exact toInt_refused hread
          · cases List.mem_singleton.mp hfloat
            exact toFloat_refused hread
        obtain ⟨message, rfl⟩ := hbad
        exact ⟨message, rfl⟩

theorem scalar_numerals_samples :
    ("+" ∈ signsOf 7 ∧ 2 + (toString (7 : Int).natAbs).length ≤ 4300 ∧
      scalar [] .int none none (padded "+" 2 7) = .ok (.int 7)) ∧
    ((toString (-12 : Int).natAbs).length ≤ 4300 ∧
      scalar [] .int none none (toString (-12 : Int)) = .ok (.int (-12))) ∧
    scalar [] .float none none "-.50E+3" = .ok (.float (.ofDecimal ⟨true, 50, 1⟩)) ∧
    (Schema.Kind.float ∈ [Schema.Kind.int, Schema.Kind.float] ∧
      ((∃ value, scalar [] .float none none "1e" = .ok value) ∨
        ∃ message, scalar [] .float none none "1e" =
          .error (.badValue message))) := by
  obtain ⟨-, hpadded, htext, hfloat, hrefused⟩ := scalar_numerals [] none none
  have hseven : "+" ∈ signsOf 7 := by decide
  have hlength : 2 + (toString (7 : Int).natAbs).length ≤ 4300 := by decide
  have hlength' : (toString (-12 : Int).natAbs).length ≤ 4300 := by decide
  have hkind : Schema.Kind.float ∈ [Schema.Kind.int, Schema.Kind.float] := by decide
  have hhalf : Mantissa ".50".toList [] "50".toList :=
    .fraction ⟨by decide, List.all_eq_true.mp rfl⟩
  have hthree : Exponent "E+3".toList 3 :=
    .present (by decide) (show ['+'] ∈ signs by decide)
      ⟨List.cons_ne_nil '3' [], List.all_eq_true.mp rfl⟩
  exact ⟨⟨hseven, hlength, hpadded 7 2 "+" hseven hlength⟩,
    ⟨hlength', htext (-12) hlength'⟩,
    (hfloat _ _).mpr ⟨['-'], by decide, _, _, _, _, _, rfl, hhalf, hthree, rfl⟩,
    hkind, hrefused _ hkind "1e"⟩

end Conversion

end PipeShell
