/-!
Decimal numerals and the doubles they stand for.

Two readings are in use. The exact one rounds the decimal value once, to the nearest double; command
line arguments and settings are read so. The scaled one, used for chunk text, keeps the leading
digits that fit 64 bits and then multiplies or divides once by a power of ten, so that it may miss
the nearest double in its last bit; it has no infinite result.
-/

namespace CoroutineVM.Number

/-- An unsigned decimal numeral: digits before and after the point, and the exponent of ten. -/
structure Numeral where
  whole : List Char
  fraction : List Char
  exponent : Int
  deriving Repr, DecidableEq

/-- A numeral of at least this magnitude, if its first digit is not zero, is above every double; one
of the opposite magnitude is below half of the least positive double. -/
def magnitudeBound : Int := 400

/-- The nearest double, an infinity above the greatest one. Numerals beyond the magnitude bounds are
settled without their power of ten being computed. -/
def Numeral.nearest (numeral : Numeral) : Float :=
  let digits := (numeral.whole ++ numeral.fraction).dropWhile (· = '0')
  let exponent := numeral.exponent - numeral.fraction.length
  let magnitude := digits.length + exponent
  if digits.isEmpty ∨ magnitude < -magnitudeBound then 0
  else if magnitudeBound < magnitude then 1 / 0
  else Float.ofScientific (Nat.ofDigitChars 10 digits 0) (decide (exponent < 0)) exponent.natAbs

/-- The bound of a 64-bit significand. -/
def significandBound : Nat := Nat.pow 2 64

/-- Appends digits to a significand for as long as it stays below the bound; the digits that do not
fit are left over. -/
def absorbDigits (significand : Nat) : List Char → Nat × List Char
  | [] => (significand, [])
  | digit :: rest =>
    let extended := 10 * significand + (digit.toNat - '0'.toNat)
    if extended < significandBound then absorbDigits extended rest
    else (significand, digit :: rest)

/-- The double `10 ^ exponent`. -/
def powerOfTen (exponent : Nat) : Float := Float.ofScientific 1 false exponent

/-- The greatest exponent whose power of ten is finite. -/
def greatestPower : Nat := 308

/-- One multiplication or division by a power of ten; `none` where the result would be infinite.
A negative exponent below the table is approached by divisions by the greatest power, after at
most three of which nothing is left of a 64-bit significand. -/
def scale (x : Float) (exponent : Int) : Nat → Option Float
  | 0 => some x
  | tries + 1 =>
    if exponent.natAbs ≤ greatestPower then
      if 0 ≤ exponent then
        let scaled := x * powerOfTen exponent.natAbs
        if scaled.isInf then none else some scaled
      else some (x / powerOfTen exponent.natAbs)
    else if x == 0 then some x
    else if 0 ≤ exponent then none
    else scale (x / powerOfTen greatestPower) (exponent + greatestPower) tries

/-- The double that the leading digits give after one scaling; `none` out of range. Digits of the
whole part that do not fit raise the exponent, digits of the fraction that do not fit are
dropped. -/
def Numeral.scaled? (numeral : Numeral) : Option Float :=
  let (leading, dropped) := absorbDigits 0 numeral.whole
  let (significand, unused) := absorbDigits leading numeral.fraction
  let taken : Nat := numeral.fraction.length - unused.length
  scale (Float.ofNat significand) (numeral.exponent + dropped.length - taken) 5

/-- Splits off the leading decimal digits. -/
def spanDigits (text : List Char) : List Char × List Char := text.span Char.isDigit

/-- Reads an exponent mark with its digits, which must be the whole text; no text is no exponent. -/
def readExponent? (text : List Char) : Option Int :=
  match text with
  | [] => some 0
  | mark :: rest =>
    if mark = 'e' ∨ mark = 'E' then
      let (negative, digits) := match rest with
        | '-' :: digits => (true, digits)
        | '+' :: digits => (false, digits)
        | digits => (false, digits)
      if digits.isEmpty || !digits.all Char.isDigit then none
      else
        let exponent := Nat.ofDigitChars 10 digits 0
        some (if negative then -(exponent : Int) else exponent)
    else none

/-- Reads an unsigned decimal numeral; one of the two digit lists may be empty. -/
def readNumeral? (text : List Char) : Option Numeral :=
  let (whole, rest) := spanDigits text
  let (fraction, rest) := match rest with
    | '.' :: rest => spanDigits rest
    | rest => ([], rest)
  if whole.isEmpty && fraction.isEmpty then none
  else (readExponent? rest).map (⟨whole, fraction, ·⟩)

/-- The names of the numbers that have no digits, in any case. -/
def readNamed? (text : List Char) : Option Float :=
  let name := String.ofList (text.map Char.toLower)
  if name = "inf" ∨ name = "infinity" then some (1 / 0)
  else if name = "nan" then some (0 / 0)
  else none

/-- Reads a number as one types it: an optional sign, then a decimal numeral or a name. -/
def ofText? (text : List Char) : Option Float :=
  let (negative, unsigned) := match text with
    | '-' :: rest => (true, rest)
    | '+' :: rest => (false, rest)
    | rest => (false, rest)
  let size := match readNumeral? unsigned with
    | some numeral => some numeral.nearest
    | none => readNamed? unsigned
  size.map fun x => if negative then -x else x

/-- Reads a natural number: digits, with nothing before them but a plus sign. -/
def readNatural? (text : List Char) : Option Nat :=
  let digits := match text with
    | '+' :: rest => rest
    | rest => rest
  if digits.isEmpty || !digits.all Char.isDigit then none
  else some (Nat.ofDigitChars 10 digits 0)

/-- Reads an integer: digits after an optional sign. -/
def readInteger? (text : List Char) : Option Int :=
  match text with
  | '-' :: '+' :: _ => none
  | '-' :: rest => (readNatural? rest).map fun size => -(size : Int)
  | text => (readNatural? text).map fun size => (size : Int)

end CoroutineVM.Number
