/-!
# Double precision numbers

The finite values of the 64-bit binary floating-point format, as exact integers: a sign, a mantissa
and a power of two. Every operation computes the exact result as a ratio of naturals and rounds it
once, to the nearest value and to the even mantissa on a tie.
-/

namespace Switchboard

/-- The value `± mantissa · 2 ^ exponent`. In normal form the mantissa has 53 bits, or the exponent
is the least one, −1074. -/
structure Binary64 where
  negative : Bool
  mantissa : Nat
  exponent : Int
  deriving DecidableEq, Repr

namespace Binary64

/-- The least exponent of two that a mantissa can be scaled by. -/
def leastExponent : Int := -1074

/-- The greatest exponent of two that a mantissa can be scaled by. -/
def greatestExponent : Int := 971

/-- Zero keeps its sign. -/
def zero (negative : Bool) : Binary64 := ⟨negative, 0, leastExponent⟩

/-- Both zeros. -/
def isZero (x : Binary64) : Bool := x.mantissa == 0

/-- The natural number nearest to `num / den`; a half goes to the even neighbour. -/
def nearestEven (num den : Nat) : Nat :=
  let floor := num / den
  let rest := num % den
  if 2 * rest > den || (2 * rest == den && floor % 2 == 1) then floor + 1 else floor

/-- `num / den` counted in units of `2 ^ exponent`, still as a ratio. -/
def inUnits (num den : Nat) (exponent : Int) : Nat × Nat :=
  (num <<< (-exponent).toNat, den <<< exponent.toNat)

/-- The exponent at which `num / den` has a mantissa of 53 bits, or the least one if that is
greater. The two logarithms leave one bit open, which the division settles. -/
def unitExponent (num den : Nat) : Int :=
  let guess := max ((Nat.log2 num : Int) - Nat.log2 den - 53) leastExponent
  let (n, d) := inUnits num den guess
  if n / d < 1 <<< 53 then guess else guess + 1

/-- The value nearest to `± num / den`, or `none` if that is beyond the greatest finite one. -/
def ofRatio (negative : Bool) (num den : Nat) : Option Binary64 :=
  if num = 0 then some (zero negative)
  else
    let exponent := unitExponent num den
    let (n, d) := inUnits num den exponent
    let mantissa := nearestEven n d
    let (mantissa, exponent) :=
      if mantissa = 1 <<< 53 then (1 <<< 52, exponent + 1) else (mantissa, exponent)
    if exponent ≤ greatestExponent then some ⟨negative, mantissa, exponent⟩ else none

/-- The magnitude as a ratio of naturals. -/
def ratio (x : Binary64) : Nat × Nat :=
  (x.mantissa <<< x.exponent.toNat, 1 <<< (-x.exponent).toNat)

/-- The product, rounded once; `none` if it is too large. -/
def mul (x y : Binary64) : Option Binary64 :=
  let (xn, xd) := x.ratio
  let (yn, yd) := y.ratio
  ofRatio (x.negative != y.negative) (xn * yn) (xd * yd)

/-- The quotient by a number other than zero, rounded once; `none` if it is too large. -/
def div (x y : Binary64) : Option Binary64 :=
  let (xn, xd) := x.ratio
  let (yn, yd) := y.ratio
  ofRatio (x.negative != y.negative) (xn * yd) (xd * yn)

/-- The same magnitude with the given sign. -/
def withSign (negative : Bool) (x : Binary64) : Binary64 := { x with negative }

/-- The greatest power of ten that is a finite value. -/
def greatestPowerOfTen : Nat := 308

/-- The value nearest to `10 ^ k`. -/
def powerOfTen (k : Nat) : Option Binary64 := ofRatio false (Nat.pow 10 k) 1

/-- Divides by the greatest power of ten so many times, or until nothing is left. -/
def shrink : Nat → Binary64 → Option Binary64
  | 0, x => some x
  | times + 1, x =>
    if x.isZero then some x
    else ((powerOfTen greatestPowerOfTen).bind x.div).bind (shrink times)

/-- `x · 10 ^ k`, or `none` if that is too large. The scaling goes by rounded powers of ten, at most
the greatest one at a time, and rounds after each; this is exact enough for short numerals and may
be off in the last place for long ones. -/
def scaleByTen (x : Binary64) : Int → Option Binary64
  | .ofNat k =>
    if k ≤ greatestPowerOfTen then (powerOfTen k).bind x.mul
    else if x.isZero then some x
    else none
  | .negSucc k =>
    (x.shrink (k / greatestPowerOfTen)).bind fun y =>
      (powerOfTen (k % greatestPowerOfTen + 1)).bind y.div

end Binary64

end Switchboard
