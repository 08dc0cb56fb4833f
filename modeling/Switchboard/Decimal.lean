/-!
# Decimal numerals

The decimal spelling of a natural number, most significant digit first, and the way back. A number
has exactly one canonical spelling: no sign, and no zero in front unless the number is zero.
Identifiers and integers on the wire are written this way.
-/

namespace Switchboard.Decimal

/-- The character of a single digit. -/
def digitChar (d : Nat) : Char := Char.ofNat ('0'.toNat + d)

/-- The digit that a character stands for; only meaningful for the ten ASCII digits. -/
def digitValue (c : Char) : Nat := c.toNat - '0'.toNat

/-- The canonical spelling of a number. -/
def digits (n : Nat) : List Char :=
  if n < 10 then [digitChar n] else digits (n / 10) ++ [digitChar (n % 10)]
termination_by n

/-- The number that a run of digits spells, reading from the left. -/
def value (cs : List Char) : Nat :=
  cs.foldl (fun n c => 10 * n + digitValue c) 0

/-- A canonical spelling: digits only, at least one of them, and no needless zero in front. -/
def isCanonical : List Char → Bool
  | [] => false
  | [c] => c.isDigit
  | c :: cs => c.isDigit && c != '0' && cs.all Char.isDigit

/-- Reads canonical spellings and nothing else. -/
def read? (cs : List Char) : Option Nat :=
  if isCanonical cs then some (value cs) else none

/-- Reads numerals as people type them, with needless zeros or a plus in front, if the number is
below a bound. -/
def readBelow? (bound : Nat) (cs : List Char) : Option Nat :=
  let ds :=
    match cs with
    | '+' :: ds => ds
    | ds => ds
  if ds ≠ [] ∧ ds.all Char.isDigit ∧ value ds < bound then some (value ds) else none

end Switchboard.Decimal
