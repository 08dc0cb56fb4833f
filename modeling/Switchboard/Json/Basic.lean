import Switchboard.Binary64

/-!
# JSON values

The documents that travel in frames. An integer that fits a 64-bit word, signed or not, is kept
exactly; every other number is a double. The members of an object are kept in ascending order of
their keys, each key once.
-/

namespace Switchboard

/-- The least integer of a signed 64-bit word. -/
abbrev leastWord : Int := -9223372036854775808

/-- The greatest integer of an unsigned 64-bit word. -/
abbrev greatestWord : Int := 18446744073709551615

/-- An integer that fits a 64-bit word, signed or unsigned. -/
structure WordInt where
  val : Int
  least : leastWord ≤ val
  greatest : val ≤ greatestWord
  deriving DecidableEq

/-- The exact integers and the rounded rest. -/
inductive JsonNumber where
  | exact (n : WordInt)
  | double (x : Binary64)
  deriving DecidableEq

/-- A JSON value. -/
inductive Json where
  | null
  | bool (b : Bool)
  | number (n : JsonNumber)
  | string (s : String)
  | array (items : List Json)
  | object (members : List (String × Json))
  deriving Inhabited

namespace Json

/-- The members of an object with one more, in its place by the order of keys. A key that is already
there takes the new value. -/
def insertMember (key : String) (v : Json) : List (String × Json) → List (String × Json)
  | [] => [(key, v)]
  | (k, w) :: rest =>
    if key < k then (key, v) :: (k, w) :: rest
    else if key = k then (key, v) :: rest
    else (k, w) :: insertMember key v rest

/-- The value of a key. -/
def member? (key : String) (members : List (String × Json)) : Option Json :=
  (members.find? fun m => m.1 == key).map (·.2)

/-- The integer as a JSON value, if it fits a word. -/
def ofInt? (n : Int) : Option Json :=
  if h : leastWord ≤ n ∧ n ≤ greatestWord then some (.number (.exact ⟨n, h.1, h.2⟩)) else none

/-- Why a text is refused. -/
inductive ReadError where
  /-- The text breaks the grammar, or holds what no value can: a number too large, half a surrogate
  pair, or too deep a nest. -/
  | malformed
  /-- The text is sound so far, but not of the shape that is wanted. -/
  | mismatched
  /-- The text ends too early. -/
  | truncated
  deriving DecidableEq, Repr

namespace ReadError

/-- The category as it stands in messages. -/
def category : ReadError → String
  | malformed => "<syntax>"
  | mismatched => "<data>"
  | truncated => "<eof>"

end ReadError

/-- White space between tokens; no other character counts. -/
def isBlank (c : Char) : Bool := c == ' ' || c == '\t' || c == '\n' || c == '\r'

/-- What an automaton makes of one more character. -/
inductive Progress (σ α : Type) where
  /-- It goes on in a new state. -/
  | more (state : σ)
  /-- The character was its last one. -/
  | done (result : α)
  /-- It was over before this character, which belongs to what follows. -/
  | before (result : α)

/-- How carefully a value is read. A value that is only passed over has to be well formed, but is
not checked for what a stored value could not hold. -/
inductive Care where
  | keep
  | skip
  deriving DecidableEq, Repr

end Json

end Switchboard
