/-!
The fewest decimal digits that read back as a given double.

A positive finite double is `significand * 2 ^ exponent`. Every real number between the midpoints
to its two neighbours reads back as it, the midpoints themselves exactly when the significand is
even. For one digit, two digits and so on, the double lies between two neighbouring points of a
decimal grid; the first grid with a point among the numbers that read back gives the answer. All
comparisons are between natural numbers, after both sides are multiplied by powers of two and ten.

How the digits are laid out as text is the subject of `CoroutineVM.Number.Text`.
-/

namespace CoroutineVM.Number

/-- A positive finite double as `significand * 2 ^ exponent`. `narrowBelow` marks the doubles whose
lower neighbour is at half the distance of the upper one, which are the powers of two. -/
structure Binary where
  significand : Nat
  exponent : Int
  narrowBelow : Bool
  deriving Repr, DecidableEq

/-- The decimal number `digits * 10 ^ exponent`. -/
structure Decimal where
  digits : Nat
  exponent : Int
  deriving Repr, DecidableEq

/-- Which of two equally near decimals is taken. -/
inductive Tie where
  | up
  | even
  deriving Repr, DecidableEq

/-- The magnitude of a finite double, read off its bits; zero for a zero. -/
def magnitude (x : Float) : Binary :=
  let bits := x.toBits.toNat
  let field : Nat := bits / Nat.pow 2 52 % Nat.pow 2 11
  let fraction : Nat := bits % Nat.pow 2 52
  if field = 0 then ⟨fraction, -1074, false⟩
  else ⟨fraction + Nat.pow 2 52, Int.ofNat field - 1075, fraction == 0 && decide (1 < field)⟩

/-- Whether the sign bit is set, which tells the two zeros apart. -/
def isNegative (x : Float) : Bool :=
  decide (Nat.pow 2 63 ≤ x.toBits.toNat)

/-- The least `e` at or above `estimate` with `x < 10 ^ e`, tried at most `tries` times. -/
def magnitudeFrom (x : Binary) (estimate : Int) : Nat → Int
  | 0 => estimate
  | tries + 1 =>
    let value := x.significand * Nat.pow 2 x.exponent.toNat * Nat.pow 10 (-estimate).toNat
    let power := Nat.pow 10 estimate.toNat * Nat.pow 2 (-x.exponent).toNat
    if value < power then estimate else magnitudeFrom x (estimate + 1) tries

/-- The least `e` with `x < 10 ^ e`. The logarithm to base two bounds it from below within two. -/
def decimalMagnitude (x : Binary) : Int :=
  magnitudeFrom x ((x.significand.log2 + x.exponent) * 30103 / 100000 - 1) 5

/-- The point of the grid `10 ^ k` that reads back as `x` and is nearest to it, if the grid has one.
Everything is scaled by four times a common denominator, so that the midpoints are natural
numbers. -/
def nearestOnGrid? (tie : Tie) (x : Binary) (k : Int) : Option Nat :=
  let twos := Nat.pow 2 (x.exponent - 2).toNat * Nat.pow 10 (-k).toNat
  let unit := Nat.pow 10 k.toNat * Nat.pow 2 (2 - x.exponent).toNat
  let value := 4 * x.significand * twos
  let low := (4 * x.significand - if x.narrowBelow then 1 else 2) * twos
  let high := (4 * x.significand + 2) * twos
  let inclusive := x.significand % 2 == 0
  let below := value / unit
  let lowerFits := decide (low < below * unit) || (inclusive && low == below * unit)
  let upperFits := decide ((below + 1) * unit < high) || (inclusive && (below + 1) * unit == high)
  let toLower := value - below * unit
  let toUpper := (below + 1) * unit - value
  match lowerFits, upperFits with
  | false, false => none
  | true, false => some below
  | false, true => some (below + 1)
  | true, true =>
    if toLower < toUpper then some below
    else if toUpper < toLower then some (below + 1)
    else match tie with
      | .up => some (below + 1)
      | .even => some (if below % 2 = 0 then below else below + 1)

/-- The first grid, from the coarse to the fine, with a point that reads back. -/
def firstGrid (tie : Tie) (x : Binary) (top : Int) (count : Nat) : Nat → Decimal
  | 0 => ⟨0, 0⟩
  | tries + 1 =>
    match nearestOnGrid? tie x (top - count) with
    | some digits => ⟨digits, top - count⟩
    | none => firstGrid tie x top (count + 1) tries

/-- The same decimal without zeros at its end; at most `tries` are dropped. -/
def Decimal.stripZeros (d : Decimal) : Nat → Decimal
  | 0 => d
  | tries + 1 =>
    if d.digits ≠ 0 ∧ d.digits % 10 = 0 then
      Decimal.stripZeros ⟨d.digits / 10, d.exponent + 1⟩ tries
    else d

/-- The decimal with the fewest digits that reads back as `x`, and the nearest to `x` among those.
Seventeen digits always suffice. -/
def shortest (tie : Tie) (x : Binary) : Decimal :=
  if x.significand = 0 then ⟨0, 0⟩
  else (firstGrid tie x (decimalMagnitude x) 1 17).stripZeros 17

end CoroutineVM.Number
