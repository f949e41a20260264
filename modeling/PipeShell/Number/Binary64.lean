import PipeShell.Number.Decimal
import PipeShell.Text.Layout

namespace PipeShell.Number

/-- A number of the 64 bit format, given by its bits: sign, eleven bits of exponent,
fraction. -/
structure Binary64 where
  bits : Nat
  deriving DecidableEq, Repr, Inhabited

namespace Binary64

def signBit : Nat := Nat.pow 2 63

def infinityBits : Nat := 2047 * Nat.pow 2 52

def isNegative (x : Binary64) : Bool := signBit ≤ x.bits

def magnitudeBits (x : Binary64) : Nat := x.bits % signBit

def isNaN (x : Binary64) : Bool := infinityBits < x.magnitudeBits

def isInfinite (x : Binary64) : Bool := x.magnitudeBits = infinityBits

def isZero (x : Binary64) : Bool := x.magnitudeBits = 0

def withSign (negative : Bool) (bits : Nat) : Binary64 :=
  ⟨if negative then signBit + bits else bits⟩

def infinity (negative : Bool) : Binary64 := withSign negative infinityBits

def notANumber : Binary64 := ⟨infinityBits + Nat.pow 2 51⟩

/-- The finite magnitude as `significand · 2 ^ exponent`. -/
def significand (x : Binary64) : Nat :=
  let field := x.magnitudeBits / Nat.pow 2 52
  let fraction := x.magnitudeBits % Nat.pow 2 52
  if field = 0 then fraction else Nat.pow 2 52 + fraction

def exponent (x : Binary64) : Int :=
  let field : Nat := x.magnitudeBits / Nat.pow 2 52
  if field = 0 then -1074 else (field : Int) - 1075

/-- `value · 2 ^ shift` as a fraction of natural numbers. -/
def scale (num den : Nat) (shift : Int) : Nat × Nat :=
  if 0 ≤ shift then (num * Nat.pow 2 shift.toNat, den)
    else (num, den * Nat.pow 2 (-shift).toNat)

def below (x : Binary64) (n : Nat) : Bool :=
  if x.isNaN then false
  else if x.isNegative then !x.isZero || 0 < n
  else if x.isInfinite then false
  else
    let (num, den) := scale x.significand 1 x.exponent
    num < n * den

/-- The quotient rounded to the nearest integer, a tie to the even one. -/
def roundDiv (num den : Nat) : Nat :=
  let quotient := num / den
  let rest := num % den
  if 2 * rest < den then quotient
  else if den < 2 * rest then quotient + 1
  else if quotient % 2 = 0 then quotient
  else quotient + 1

/-- The exponent at which `num / den` has a significand of 53 bits, or the least
one. -/
def exponentFor (num den : Nat) : Int :=
  let guess : Int := (num.log2 : Int) - (den.log2 : Int) - 52
  let (n, d) := scale num den (-guess)
  let fitted := if n < Nat.pow 2 52 * d then guess - 1 else guess
  max fitted (-1074)

def magnitudeOfRatio (num den : Nat) : Nat :=
  if num = 0 then 0
  else
    let exponent := exponentFor num den
    let (n, d) := scale num den (-exponent)
    let rounded := roundDiv n d
    let (significand, exponent) :=
      if rounded = Nat.pow 2 53 then (Nat.pow 2 52, exponent + 1)
        else (rounded, exponent)
    if 971 < exponent then infinityBits
    else if significand < Nat.pow 2 52 then significand
    else (exponent + 1075).toNat * Nat.pow 2 52 + (significand - Nat.pow 2 52)

/-- The number nearest to a decimal fraction. Far out of range the answer is known
without building the power of ten. -/
def ofDecimal (d : Decimal) : Binary64 :=
  let places : Int := (digitsOfNat d.mantissa).length
  if d.mantissa = 0 then withSign d.negative 0
  else if 400 < places + d.exponent then infinity d.negative
  else if places + d.exponent < -400 then withSign d.negative 0
  else if 0 ≤ d.exponent then
    withSign d.negative
      (magnitudeOfRatio (d.mantissa * Nat.pow 10 d.exponent.toNat) 1)
  else
    withSign d.negative (magnitudeOfRatio d.mantissa
      (Nat.pow 10 (-d.exponent).toNat))

/-- Whether `digits · 10 ^ place` reads back as the magnitude with bits `bits`. -/
def readsBack (bits digits : Nat) (place : Int) : Bool :=
  (ofDecimal ⟨false, digits, place⟩).bits = bits

/-- The two multiples of `10 ^ place` around the magnitude of `x`, as counts of that
unit, and whether the upper one is nearer. -/
def neighbours (x : Binary64) (place : Int) : Nat × Nat × Bool :=
  let (n, d) := scale x.significand 1 x.exponent
  let (n, d) :=
    if 0 ≤ place then (n, d * Nat.pow 10 place.toNat)
      else (n * Nat.pow 10 (-place).toNat, d)
  let below := n / d
  let rest := n % d
  let upperNearer := if 2 * rest = d then below % 2 = 1 else d < 2 * rest
  (below, below + 1, upperNearer)

/-- Searches for the fewest digits, from coarse units to fine ones. -/
def shortestFrom (x : Binary64) : (steps : Nat) → (place : Int) → Nat × Int
  | 0, place =>
      let (below, _, _) := x.neighbours place
      (below, place)
  | steps + 1, place =>
      let (below, above, upperNearer) := x.neighbours place
      let first := if upperNearer then above else below
      let second := if upperNearer then below else above
      if readsBack x.magnitudeBits first place then (first, place)
      else if readsBack x.magnitudeBits second place then (second, place)
      else shortestFrom x steps (place - 1)

/-- The decimal order of magnitude of `x`: one more than the exponent of its first
digit. -/
def order (x : Binary64) : Int :=
  let (n, d) := scale x.significand 1 x.exponent
  if d ≤ n then (digitsOfNat (n / d)).length
  else
    let quotient := d / n
    1 - ((digitsOfNat quotient).length : Int)

/-- The fewest digits that read back, nearest to the value among those, with the
place of the last digit. Trailing zeros are dropped. -/
def shortest (x : Binary64) : List Char × Int :=
  let (digits, place) := shortestFrom x 20 (x.order)
  let chars := digitsOfNat digits
  let kept := (chars.reverse.dropWhile (· = '0')).reverse
  (kept, place + ((chars.length - kept.length : Nat) : Int))

/-- Positional notation for first digits between the fourth place after the point and
the sixteenth before it, an exponent of at least two digits otherwise. -/
def positionalDigits : Int × Int := (-4, 16)

def exponentText (exponent : Int) : String :=
  let digits := String.ofList (digitsOfNat exponent.natAbs)
  (if exponent < 0 then "e-" else "e+") ++ Text.zeroPad 2 digits

def finiteText (x : Binary64) : String :=
  let (digits, place) := x.shortest
  let point : Int := digits.length + place
  if positionalDigits.1 < point && point ≤ positionalDigits.2 then
    if point ≤ 0 then
      "0." ++ String.ofList (List.replicate (-point).toNat '0' ++ digits)
    else if (digits.length : Int) ≤ point then
      String.ofList (digits ++ List.replicate (point - digits.length).toNat '0') ++
        ".0"
    else
      String.ofList (digits.take point.toNat) ++ "." ++
        String.ofList (digits.drop point.toNat)
  else
    match digits with
    | [] => "0.0"
    | [d] => String.ofList [d] ++ exponentText (point - 1)
    | d :: rest => String.ofList (d :: '.' :: rest) ++ exponentText (point - 1)

structure SpecialNames where
  notANumber : String
  infinite : String

def textWith (names : SpecialNames) (x : Binary64) : String :=
  if x.isNaN then names.notANumber
  else
    (if x.isNegative then "-" else "") ++
      (if x.isInfinite then names.infinite else if x.isZero then "0.0"
        else x.finiteText)

def hexText (x : Binary64) : String :=
  String.ofList ((List.range 16).reverse.map fun i =>
    let digit := x.bits / Nat.pow 16 i % 16
    if digit < 10 then Char.ofNat (48 + digit) else Char.ofNat (87 + digit))

end Binary64

end PipeShell.Number
