import CoroutineVM.Number.Shortest
import CoroutineVM.Number.Width

/-!
Doubles as text.

A `Layout` says how the shortest digits of a double are written: which decimal magnitudes are
written positionally, whether an integral number keeps one digit after the point, and which way an
exact tie of the last digit goes. The two layouts in use are the one of messages and displayed
values, which never has an exponent, and the one of chunk text.
-/

namespace CoroutineVM.Number

/-- How the digits of a double are laid out. A number whose first digit stands for `10 ^ (e - 1)`
has the magnitude `e`; magnitudes outside the two bounds are written with an exponent. -/
structure Layout where
  tie : Tie
  leastPositional : Option Int
  greatestPositional : Option Int
  keepsFraction : Bool

/-- Messages and displayed values are positional at every magnitude; a tie goes up. -/
def Layout.display : Layout := ⟨.up, none, none, false⟩

/-- Chunk text is positional from `0.00001` to below `10 ^ 16`, and always shows that a number is
a double; a tie goes to the even digit. -/
def Layout.chunkText : Layout := ⟨.even, some (-4), some 16, true⟩

/-- Whether numbers of this magnitude are written without an exponent. -/
def Layout.isPositional (layout : Layout) (magnitude : Int) : Bool :=
  layout.leastPositional.all (· ≤ magnitude) && layout.greatestPositional.all (magnitude ≤ ·)

/-- The digits with the decimal point at `magnitude` places from the left, padded with zeros. -/
def positional (keepsFraction : Bool) (digits : List Char) (magnitude : Int) : List Char :=
  if magnitude ≤ 0 then
    ['0', '.'] ++ List.replicate (-magnitude).toNat '0' ++ digits
  else if digits.length ≤ magnitude.toNat then
    digits ++ List.replicate (magnitude.toNat - digits.length) '0' ++
      if keepsFraction then ['.', '0'] else []
  else digits.take magnitude.toNat ++ ['.'] ++ digits.drop magnitude.toNat

/-- A signed decimal exponent; the sign is always written. -/
def exponentText (exponent : Int) : List Char :=
  (if exponent < 0 then '-' else '+') :: Nat.toDigits 10 exponent.natAbs

/-- One digit before the point, the others after it, and the exponent. -/
def scientific (digits : List Char) (magnitude : Int) : List Char :=
  let rest := digits.drop 1
  digits.take 1 ++ (if rest.isEmpty then [] else '.' :: rest) ++
    'e' :: exponentText (magnitude - 1)

/-- A decimal laid out; a zero has the magnitude one, as its digit stands before the point. -/
def Decimal.write (layout : Layout) (decimal : Decimal) : List Char :=
  let digits := Nat.toDigits 10 decimal.digits
  let magnitude := digits.length + decimal.exponent
  if layout.isPositional magnitude then positional layout.keepsFraction digits magnitude
  else scientific digits magnitude

/-- A finite double: its sign, a negative zero's included, and its shortest digits. -/
def writeFinite (layout : Layout) (x : Float) : List Char :=
  (if isNegative x then ['-'] else []) ++ (shortest layout.tie (magnitude x)).write layout

/-- The integer that a double is, if it is one. -/
def toInteger? (x : Float) : Option Int :=
  let size := magnitude x
  let whole : Nat := size.significand * Nat.pow 2 size.exponent.toNat
  let divisor : Nat := Nat.pow 2 (-size.exponent).toNat
  if x.isFinite && whole % divisor == 0 then
    some (if isNegative x then -(whole / divisor : Nat) else (whole / divisor : Nat))
  else none

/-- The natural number nearest to a double, a half going up: zero for NaN and for every double with
a negative sign, and at most the greatest natural number of 64 bits. -/
def toNatural (x : Float) : Nat :=
  let size := magnitude x
  let whole : Nat := size.significand * Nat.pow 2 size.exponent.toNat
  let divisor : Nat := Nat.pow 2 (-size.exponent).toNat
  if x.isNaN || isNegative x then 0
  else min ((2 * whole + divisor) / (2 * divisor)) greatestNatural

/-- A double by its shortest digits without an exponent, with the sign of a negative zero, or the
name of what has no digits. -/
def plain (x : Float) : List Char :=
  if x.isNaN then ['N', 'a', 'N']
  else if x.isFinite then writeFinite .display x
  else (if isNegative x then ['-'] else []) ++ ['i', 'n', 'f']

/-- Integers below this bound in magnitude are displayed as integers; every one of them is exact. -/
def displayedAsInteger : Nat := Nat.pow 10 15

/-- A double as it is displayed: a small integer without sign of zero, and all else by its shortest
digits. -/
def display (x : Float) : List Char :=
  match toInteger? x with
  | some n =>
    if n.natAbs < displayedAsInteger then
      (if n < 0 then ['-'] else []) ++ Nat.toDigits 10 n.natAbs
    else plain x
  | none => plain x

end CoroutineVM.Number
