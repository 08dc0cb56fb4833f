import Switchboard.Decimal

/-!
# Request identifiers

Every request carries an identifier, and the reply to it carries the same one. On the wire an
identifier is a canonical decimal token, so two different tokens never name the same request.
-/

namespace Switchboard

/-- The identifier that ties a reply to its request: a 64-bit word. -/
structure RequestId where
  value : UInt64
  deriving DecidableEq, Repr

namespace RequestId

instance : LT RequestId := ⟨fun a b => a.value < b.value⟩

instance (a b : RequestId) : Decidable (a < b) :=
  inferInstanceAs (Decidable (a.value < b.value))

/-- The token of an identifier, as it stands in a frame. -/
def token (id : RequestId) : String := String.ofList (Decimal.digits id.value.toNat)

/-- The identifier of a token. Anything but the canonical decimal of a 64-bit word is refused, so
`01` and `+1` never stand for request `1`. -/
def ofToken? (token : String) : Option RequestId :=
  match Decimal.read? token.toList with
  | some n => if n < UInt64.size then some ⟨UInt64.ofNat n⟩ else none
  | none => none

end RequestId

end Switchboard
