namespace PipeShell.Number

def isAsciiDigit (c : Char) : Bool :=
  '0' ≤ c && c ≤ '9'

def digitValue (c : Char) : Nat :=
  c.toNat - '0'.toNat

def natOfDigits (digits : List Char) : Nat :=
  digits.foldl (fun n c => 10 * n + digitValue c) 0

/-- Digits of `n`, highest first; `fuel` bounds their number. -/
def digitsAux : (fuel : Nat) → (n : Nat) → List Char → List Char
  | 0, _, rest => rest
  | fuel + 1, n, rest =>
      let rest := Char.ofNat ('0'.toNat + n % 10) :: rest
      if n < 10 then rest else digitsAux fuel (n / 10) rest

def digitsOfNat (n : Nat) : List Char :=
  digitsAux (n.log2 + 1) n []

/-- An optional sign and what follows it; the first part tells whether the sign is a
minus. -/
def splitSign : List Char → Bool × List Char
  | '+' :: rest => (false, rest)
  | '-' :: rest => (true, rest)
  | rest => (false, rest)

def signed (negative : Bool) (n : Nat) : Int :=
  if negative then -(n : Int) else n

def maxDigits : Nat := 4300

inductive IntegerFault where
  | notNumeral
  | tooLong (digits : Nat)
  deriving DecidableEq, Repr

def tooLongMessage (digits : Nat) : String :=
  "Exceeds the limit (" ++ toString maxDigits ++
    " digits) for integer string conversion: value has " ++ toString digits ++
    " digits; use sys.set_int_max_str_digits() to increase the limit"

/-- Reads an optional sign and one to `maxDigits` digits. -/
def readInteger (text : List Char) : Except IntegerFault Int :=
  let (negative, digits) := splitSign text
  if digits.isEmpty || !digits.all isAsciiDigit then
    .error .notNumeral
  else if maxDigits < digits.length then
    .error (.tooLong digits.length)
  else
    .ok (signed negative (natOfDigits digits))

structure Decimal where
  negative : Bool
  mantissa : Nat
  exponent : Int
  deriving DecidableEq, Repr

/-- The optional exponent part of a numeral: `e` or `E`, an optional sign, digits. -/
def readExponent : List Char → Option Int
  | [] => some 0
  | c :: rest =>
      if c = 'e' || c = 'E' then
        let (negative, digits) := splitSign rest
        if digits.isEmpty || !digits.all isAsciiDigit then none
        else some (signed negative (natOfDigits digits))
      else
        none

/-- Reads an optional sign, digits with an optional point and further digits, or a
point with at least one digit after it, and then an optional exponent. -/
def readDecimal? (text : List Char) : Option Decimal :=
  let (negative, text) := splitSign text
  let whole := text.takeWhile isAsciiDigit
  let rest := text.dropWhile isAsciiDigit
  let (fraction, tail) :=
    match rest with
    | '.' :: after => (after.takeWhile isAsciiDigit, after.dropWhile isAsciiDigit)
    | _ => ([], rest)
  if whole.isEmpty && fraction.isEmpty then
    none
  else
    match readExponent tail with
    | none => none
    | some exponent =>
        some
          { negative
            mantissa := natOfDigits (whole ++ fraction)
            exponent := exponent - fraction.length }

end PipeShell.Number
