import Switchboard.Json.Basic
import Switchboard.Decimal

/-!
# Numerals

The numbers of JSON: an optional minus sign, a whole part without needless zeros, and optionally a
fraction and an exponent. A numeral does not announce its end, so its automaton stops at the first
character that cannot continue it.
-/

namespace Switchboard.Json

/-- What has been read of a numeral last. -/
inductive Numeral.Stage where
  | sign
  | zero
  | whole
  | point
  | fraction
  | mark
  | markSign
  | exponent
  deriving DecidableEq, Repr

/-- A numeral as far as it is read. The digits of each part are kept newest first. -/
structure Numeral where
  stage : Numeral.Stage
  negative : Bool := false
  whole : List Char := []
  fraction : List Char := []
  shrinking : Bool := false
  exponent : List Char := []
  deriving DecidableEq, Repr

namespace Numeral

/-- The numeral that starts with a character, if one can. -/
def start? (c : Char) : Option Numeral :=
  if c = '-' then some { stage := .sign, negative := true }
  else if c = '0' then some { stage := .zero, whole := ['0'] }
  else if c.isDigit then some { stage := .whole, whole := [c] }
  else none

/-- A further character after a whole part: a point, an exponent, or the end. -/
def afterWhole (n : Numeral) (c : Char) : Progress Numeral Numeral :=
  if c = '.' then .more { n with stage := .point }
  else if c = 'e' || c = 'E' then .more { n with stage := .mark }
  else .before n

/-- Reads one more character. -/
def step (n : Numeral) (c : Char) : Except ReadError (Progress Numeral Numeral) :=
  match n.stage with
  | .sign =>
    if c = '0' then .ok (.more { n with stage := .zero, whole := ['0'] })
    else if c.isDigit then .ok (.more { n with stage := .whole, whole := [c] })
    else .error .malformed
  | .zero => if c.isDigit then .error .malformed else .ok (n.afterWhole c)
  | .whole =>
    if c.isDigit then .ok (.more { n with whole := c :: n.whole }) else .ok (n.afterWhole c)
  | .point =>
    if c.isDigit then .ok (.more { n with stage := .fraction, fraction := [c] })
    else .error .malformed
  | .fraction =>
    if c.isDigit then .ok (.more { n with fraction := c :: n.fraction })
    else if c = 'e' || c = 'E' then .ok (.more { n with stage := .mark })
    else .ok (.before n)
  | .mark =>
    if c = '+' then .ok (.more { n with stage := .markSign })
    else if c = '-' then .ok (.more { n with stage := .markSign, shrinking := true })
    else if c.isDigit then .ok (.more { n with stage := .exponent, exponent := [c] })
    else .error .malformed
  | .markSign =>
    if c.isDigit then .ok (.more { n with stage := .exponent, exponent := [c] })
    else .error .malformed
  | .exponent =>
    if c.isDigit then .ok (.more { n with exponent := c :: n.exponent }) else .ok (.before n)

/-- Whether the numeral may end here. -/
def isComplete (n : Numeral) : Bool :=
  match n.stage with
  | .zero | .whole | .fraction | .exponent => true
  | .sign | .point | .mark | .markSign => false

/-- Whether there is neither a fraction nor an exponent. -/
def isWhole (n : Numeral) : Bool :=
  match n.stage with
  | .zero | .whole => true
  | _ => false

/-- Takes digits into a significand as long as it fits a 64-bit word, and returns the digits that
no longer do. -/
def gather (significand : Nat) : List Char → Nat × List Char
  | [] => (significand, [])
  | c :: cs =>
    let next := 10 * significand + Decimal.digitValue c
    if next < UInt64.size then gather next cs else (significand, c :: cs)

/-- The power of ten that the exponent part gives. -/
def power (n : Numeral) : Int :=
  let magnitude : Int := Decimal.value n.exponent.reverse
  if n.shrinking then -magnitude else magnitude

/-- The numeral as a double. The leading digits that fit a 64-bit word make the significand; of the
others, those of the whole part only raise the power of ten, those of the fraction are dropped. -/
def toDouble? (n : Numeral) : Option Binary64 :=
  let (whole, overflow) := gather 0 n.whole.reverse
  let (significand, dropped) := gather whole n.fraction.reverse
  let used := n.fraction.length - dropped.length
  let power := n.power + overflow.length - used
  (Binary64.ofRatio false significand 1).bind fun x =>
    (x.scaleByTen power).map (·.withSign n.negative)

/-- The number that a numeral without fraction and exponent names exactly, if a word can hold it.
A negative zero is not such a number. -/
def toWord? (n : Numeral) : Option WordInt :=
  if n.isWhole then
    let magnitude : Int := Decimal.value n.whole.reverse
    if n.negative then
      if h : 0 < magnitude ∧ leastWord ≤ -magnitude then
        some ⟨-magnitude, h.2, by unfold greatestWord; omega⟩
      else none
    else if h : 0 ≤ magnitude ∧ magnitude ≤ greatestWord then
      some ⟨magnitude, by unfold leastWord; omega, h.2⟩
    else none
  else none

/-- The value of a complete numeral; `none` if it is beyond the greatest double. -/
def value? (n : Numeral) : Option JsonNumber :=
  match n.toWord? with
  | some i => some (.exact i)
  | none => n.toDouble?.map .double

end Numeral

end Switchboard.Json
