import Switchboard.Json.Basic

/-!
# Quoted strings

A string stands between quotes. Inside, quotes, backslashes and control characters are escaped; on
reading, any character may be. A character beyond the first plane may be escaped as a surrogate
pair, two units of sixteen bits.
-/

namespace Switchboard.Json

/-- A lower-case hexadecimal digit. -/
def hexDigit (d : Nat) : Char := if d < 10 then Char.ofNat (48 + d) else Char.ofNat (87 + d)

/-- The characters that stand for one character inside quotes. -/
def escapeChar (c : Char) : List Char :=
  if c = '"' then ['\\', '"']
  else if c = '\\' then ['\\', '\\']
  else if c = '\x08' then ['\\', 'b']
  else if c = '\t' then ['\\', 't']
  else if c = '\n' then ['\\', 'n']
  else if c = '\x0c' then ['\\', 'f']
  else if c = '\r' then ['\\', 'r']
  else if c.toNat < 0x20 then
    ['\\', 'u', '0', '0', hexDigit (c.toNat / 16), hexDigit (c.toNat % 16)]
  else [c]

/-- A string in quotes. -/
def quote (s : String) : List Char := '"' :: (s.toList.flatMap escapeChar ++ ['"'])

/-- The character that a letter after a backslash stands for. -/
def unescape? (c : Char) : Option Char :=
  if c = '"' then some '"'
  else if c = '\\' then some '\\'
  else if c = '/' then some '/'
  else if c = 'b' then some '\x08'
  else if c = 'f' then some '\x0c'
  else if c = 'n' then some '\n'
  else if c = 'r' then some '\r'
  else if c = 't' then some '\t'
  else none

/-- The value of a hexadecimal digit of either case. -/
def hexValue? (c : Char) : Option Nat :=
  if c.isDigit then some (c.toNat - 48)
  else if 'a' ≤ c ∧ c ≤ 'f' then some (c.toNat - 87)
  else if 'A' ≤ c ∧ c ≤ 'F' then some (c.toNat - 55)
  else none

/-- The unit that four hexadecimal digits name. -/
def hexUnit? : List Char → Option Nat
  | [a, b, c, d] => do
    let a ← hexValue? a
    let b ← hexValue? b
    let c ← hexValue? c
    let d ← hexValue? d
    some (((a * 16 + b) * 16 + c) * 16 + d)
  | _ => none

/-- A unit that opens a surrogate pair. -/
def isLeading (unit : Nat) : Bool := 0xD800 ≤ unit && unit ≤ 0xDBFF

/-- A unit that closes a surrogate pair. -/
def isTrailing (unit : Nat) : Bool := 0xDC00 ≤ unit && unit ≤ 0xDFFF

/-- The character of a surrogate pair. -/
def pairChar (leading trailing : Nat) : Char :=
  Char.ofNat ((leading - 0xD800) * 0x400 + (trailing - 0xDC00) + 0x10000)

/-- A string being read, after its opening quote. The text so far is kept newest first; `lead` is a
leading surrogate that waits for its other half. -/
inductive Quoted where
  | plain (text : List Char)
  | escape (text : List Char)
  | hex (text : List Char) (lead : Option Nat) (taken : List Char)
  | half (text : List Char) (lead : Nat)
  | halfEscape (text : List Char) (lead : Nat)
  deriving DecidableEq, Repr

namespace Quoted

/-- The bytes that characters take in UTF-8. -/
def byteCount (cs : List Char) : Nat := cs.foldl (fun n c => n + c.utf8Size) 0

/-- Takes a unit that was read from its four digits. -/
def takeUnit (care : Care) (text : List Char) (lead : Option Nat) (unit : Nat) :
    Except ReadError Quoted :=
  match care, lead with
  | .skip, _ => .ok (.plain text)
  | .keep, none =>
    if isTrailing unit then .error .malformed
    else if isLeading unit then .ok (.half text unit)
    else .ok (.plain (Char.ofNat unit :: text))
  | .keep, some leading =>
    if isTrailing unit then .ok (.plain (pairChar leading unit :: text))
    else .error .malformed

/-- Reads one more character. The four digits of an escape are four bytes: once four bytes are
there they have to be digits, and with fewer the verdict waits. -/
def step (care : Care) (q : Quoted) (c : Char) : Except ReadError (Progress Quoted String) :=
  match q with
  | .plain text =>
    if c = '"' then .ok (.done (String.ofList text.reverse))
    else if c = '\\' then .ok (.more (.escape text))
    else if c.toNat < 0x20 then .error .malformed
    else .ok (.more (.plain (c :: text)))
  | .escape text =>
    if c = 'u' then .ok (.more (.hex text none []))
    else
      match unescape? c with
      | some d => .ok (.more (.plain (d :: text)))
      | none => .error .malformed
  | .hex text lead taken =>
    let taken := taken ++ [c]
    if byteCount taken < 4 then .ok (.more (.hex text lead taken))
    else
      match hexUnit? taken with
      | some unit => (takeUnit care text lead unit).map .more
      | none => .error .malformed
  | .half text lead =>
    if c = '\\' then .ok (.more (.halfEscape text lead)) else .error .malformed
  | .halfEscape text lead =>
    if c = 'u' then .ok (.more (.hex text (some lead) [])) else .error .malformed

end Quoted

end Switchboard.Json
