import Switchboard.Binary64
import Switchboard.Decimal

/-!
# The shortest decimal that reads back

A double stands for every real that rounds to it. Of all decimals in that interval the shortest is
chosen, and of the shortest ones the nearest to the exact value.
-/

namespace Switchboard.Binary64

/-- A positive decimal `significand · 10 ^ exponent`. -/
structure DecimalForm where
  significand : Nat
  exponent : Int
  deriving DecidableEq, Repr

/-- The reals that round to a positive value, in units of a quarter of its last place: from `low` to
`high` around `centre`, ends included when the mantissa is even. Below a power of two the values lie
twice as dense, so there the lower half of the interval is half as wide. -/
structure Interval where
  low : Nat
  centre : Nat
  high : Nat
  closed : Bool

/-- The rounding interval of the magnitude of `x`. -/
def interval (x : Binary64) : Interval :=
  let centre := 4 * x.mantissa
  let atPower := x.mantissa == 1 <<< 52 && x.exponent > leastExponent
  { low := centre - (if atPower then 1 else 2)
    centre
    high := centre + 2
    closed := x.mantissa % 2 == 0 }

/-- Whether `point / scale` lies in the interval. -/
def Interval.contains (i : Interval) (point scale : Nat) : Bool :=
  if i.closed then i.low * scale ≤ point && point ≤ i.high * scale
  else i.low * scale < point && point < i.high * scale

/-- The distance of `point / scale` from the centre, in units of `1 / scale`. -/
def Interval.distance (i : Interval) (point scale : Nat) : Nat :=
  (i.centre * scale - point) + (point - i.centre * scale)

/-- The decimal with exponent `exponent` that lies in the rounding interval of `x`, if there is one.
Only the two neighbours of the exact value can be the nearest; a tie goes to the even one. -/
def onGrid? (x : Binary64) (exponent : Int) : Option Nat :=
  let i := x.interval
  -- one step of the grid is `step / scale` quarter places
  let shift := x.exponent - 2
  let step := Nat.pow 10 exponent.toNat <<< (-shift).toNat
  let scale := Nat.pow 10 (-exponent).toNat <<< shift.toNat
  let below := i.centre * scale / step
  let above := below + 1
  let fits (n : Nat) := n != 0 && i.contains (n * step) scale
  match fits below, fits above with
  | true, true =>
    let b := i.distance (below * step) scale
    let a := i.distance (above * step) scale
    some (if a < b || (a == b && above % 2 == 0) then above else below)
  | true, false => some below
  | false, true => some above
  | false, false => none

/-- The decimal exponent of the leading digit of a positive value, from its exact ratio. -/
def leadingExponent (x : Binary64) : Int :=
  let (num, den) := x.ratio
  if num ≥ den then ((Decimal.digits (num / den)).length : Int) - 1
  else -((Decimal.digits ((den + num - 1) / num - 1)).length : Int)

/-- Tries ever finer grids; seventeen digits always suffice. -/
def shortestFrom (x : Binary64) (leading : Int) : (more : Nat) → (digits : Nat) → DecimalForm
  | 0, _ => ⟨0, 0⟩
  | more + 1, digits =>
    let exponent := leading - digits
    match x.onGrid? exponent with
    | some significand => ⟨significand, exponent⟩
    | none => shortestFrom x leading more (digits + 1)

/-- The shortest decimal that reads back as the magnitude of `x`. -/
def shortest (x : Binary64) : DecimalForm :=
  if x.isZero then ⟨0, 0⟩ else shortestFrom x x.leadingExponent 18 0

end Switchboard.Binary64
