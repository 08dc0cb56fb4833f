import Switchboard.Json.Quoted
import Switchboard.Binary64.Shortest

/-!
# Printing JSON

Two layouts: compact, with nothing between the tokens, which is what travels in frames, and pretty,
with one item a line, for people. Both write members in the order in which they are stored.
-/

namespace Switchboard.Json

/-- How doubles are written. -/
structure DoubleLayout where
  /-- The least decimal exponent of the first digit that is still written without an exponent. -/
  leastPlain : Int
  /-- The least such exponent that is written with one again. -/
  beyondPlain : Int
  /-- What stands after the point of a number without a fraction. -/
  emptyFraction : List Char
  /-- The sign of an exponent that is not negative. -/
  plus : List Char

/-- From a hundred-thousandth up to sixteen digits, doubles are written out, with at least one digit
after the point; the others have one digit before the point and an exponent with a sign. -/
def doubleLayout : DoubleLayout :=
  { leastPlain := -5, beyondPlain := 16, emptyFraction := ['0'], plus := ['+'] }

/-- An integer, with a minus sign if it is negative. -/
def spellInt (n : Int) : List Char :=
  if n < 0 then '-' :: Decimal.digits n.natAbs else Decimal.digits n.natAbs

/-- A run of digits with the point after the first `places` of them; zeros fill the gap. -/
def DoubleLayout.plain (l : DoubleLayout) (digits : List Char) (places : Int) : List Char :=
  if places ≤ 0 then
    '0' :: '.' :: (List.replicate (-places).toNat '0' ++ digits)
  else if digits.length ≤ places then
    digits ++ List.replicate (places.toNat - digits.length) '0' ++ '.' :: l.emptyFraction
  else digits.take places.toNat ++ '.' :: digits.drop places.toNat

/-- A run of digits with the point after the first of them, and the exponent of that digit. -/
def DoubleLayout.scientific (l : DoubleLayout) (digits : List Char) (leading : Int) : List Char :=
  let mantissa :=
    match digits with
    | [] | [_] => digits
    | first :: rest => first :: '.' :: rest
  let exponent := if leading < 0 then spellInt leading else l.plus ++ spellInt leading
  mantissa ++ 'e' :: exponent

/-- A double, by its shortest decimal. -/
def DoubleLayout.spell (l : DoubleLayout) (x : Binary64) : List Char :=
  let d := x.shortest
  let all := Decimal.digits d.significand
  let leading := d.exponent + all.length - 1
  let digits := (all.reverse.dropWhile (· == '0')).reverse
  let magnitude :=
    if digits.isEmpty then '0' :: '.' :: l.emptyFraction
    else if l.leastPlain ≤ leading ∧ leading < l.beyondPlain then l.plain digits (leading + 1)
    else l.scientific digits leading
  if x.negative then '-' :: magnitude else magnitude

/-- A number. -/
def spellNumber : JsonNumber → List Char
  | .exact n => spellInt n.val
  | .double x => doubleLayout.spell x

mutual

/-- A value without anything between its tokens. -/
def spell : Json → List Char
  | .null => ['n', 'u', 'l', 'l']
  | .bool true => ['t', 'r', 'u', 'e']
  | .bool false => ['f', 'a', 'l', 's', 'e']
  | .number n => spellNumber n
  | .string s => quote s
  | .array items => '[' :: (spellItems items ++ [']'])
  | .object members => '{' :: (spellMembers members ++ ['}'])

/-- Items with commas between them. -/
def spellItems : List Json → List Char
  | [] => []
  | v :: rest =>
    spell v ++
      match rest with
      | [] => []
      | _ => ',' :: spellItems rest

/-- Members with commas between them. -/
def spellMembers : List (String × Json) → List Char
  | [] => []
  | (key, v) :: rest =>
    quote key ++ ':' :: (spell v ++
      match rest with
      | [] => []
      | _ => ',' :: spellMembers rest)

end

/-- The compact text of a value. -/
def compact (v : Json) : String := String.ofList (spell v)

/-- The start of a new line, two blanks for each open container. -/
def indentation (depth : Nat) : List Char := '\n' :: List.replicate (2 * depth) ' '

mutual

/-- A value inside `depth` open containers, one item or member a line. -/
def layOut (depth : Nat) : Json → List Char
  | .array [] => ['[', ']']
  | .array items => '[' :: (layOutItems (depth + 1) items ++ indentation depth ++ [']'])
  | .object [] => ['{', '}']
  | .object members => '{' :: (layOutMembers (depth + 1) members ++ indentation depth ++ ['}'])
  | .null => ['n', 'u', 'l', 'l']
  | .bool true => ['t', 'r', 'u', 'e']
  | .bool false => ['f', 'a', 'l', 's', 'e']
  | .number n => spellNumber n
  | .string s => quote s

/-- Items, each on a line of its own. -/
def layOutItems (depth : Nat) : List Json → List Char
  | [] => []
  | v :: rest =>
    indentation depth ++ layOut depth v ++
      match rest with
      | [] => []
      | _ => ',' :: layOutItems depth rest

/-- Members, each on a line of its own. -/
def layOutMembers (depth : Nat) : List (String × Json) → List Char
  | [] => []
  | (key, v) :: rest =>
    indentation depth ++ quote key ++ ':' :: ' ' :: (layOut depth v ++
      match rest with
      | [] => []
      | _ => ',' :: layOutMembers depth rest)

end

/-- The text of a value for people. -/
def pretty (v : Json) : String := String.ofList (layOut 0 v)

/-- A way to write values of `α` as JSON text. A value may have none. -/
abbrev Encoder (α : Type) := α → Except ReadError String

/-- Any value, as it is. -/
def Encoder.any : Encoder Json := fun v => .ok v.compact

end Switchboard.Json
