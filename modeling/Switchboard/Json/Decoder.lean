import Switchboard.Json.Basic

/-!
# Decoding values

A decoder takes a JSON value to a value of the caller's own type, or refuses it. Integers are only
decoded from exact integers in range, never from doubles.
-/

namespace Switchboard.Json

/-- A way to see JSON values as values of `α`. -/
abbrev Decoder (α : Type) := Json → Option α

namespace Decoder

/-- Any value, as it is. -/
def any : Decoder Json := some

/-- A truth value. -/
def bool : Decoder Bool
  | .bool b => some b
  | _ => none

/-- A text. -/
def string : Decoder String
  | .string s => some s
  | _ => none

/-- An integer from `least` up to `greatest`. -/
def int (least greatest : Int) : Decoder Int
  | .number (.exact n) => if least ≤ n.val ∧ n.val ≤ greatest then some n.val else none
  | _ => none

/-- A natural number below two to the power of `bits`. -/
def unsigned (bits : Nat) : Decoder Int :=
  let bound := Int.ofNat (1 <<< bits)
  int 0 (bound - 1)

/-- An integer of `bits` bits in two's complement. -/
def signed (bits : Nat) : Decoder Int :=
  let bound := Int.ofNat (1 <<< (bits - 1))
  int (-bound) (bound - 1)

/-- Null for nothing, or a value of the given kind. -/
def optional (d : Decoder α) : Decoder (Option α)
  | .null => some none
  | v => (d v).map some

/-- An array of values of one kind. -/
def list (d : Decoder α) : Decoder (List α)
  | .array items => items.mapM d
  | _ => none

/-- A record of two named fields, from an object that may have more members, or from an array that
holds exactly the two in order. -/
def record (first : String) (d : Decoder α) (second : String) (e : Decoder β) : Decoder (α × β)
  | .object members => do
    let a ← (member? first members).bind d
    let b ← (member? second members).bind e
    some (a, b)
  | .array [a, b] => do
    let a ← d a
    let b ← e b
    some (a, b)
  | _ => none

end Decoder

end Switchboard.Json
