import Switchboard.Decimal
import Switchboard.Cut

/-!
# Reading the words of a command line

A word is told by its looks: a long or short parameter, a separator, or a plain word. Plain words
are values of the parameter before them as long as it wants any, and operands otherwise; after a
separator every word is an operand. Reading stops as soon as it is clear that nothing is to be done.
-/

namespace Switchboard.CommandLine

/-- What can be set on the command line, operands apart. -/
inductive Parameter where
  /-- The address of the server. -/
  | server
  /-- How long to wait for the reply. -/
  | timeout
  /-- Whether identifiers follow the clock. -/
  | timestampIds
  /-- The condition on the documents of a list. -/
  | filter
  /-- A request for help. -/
  | help
  /-- A request for the version of the program. -/
  | version
  deriving DecidableEq, Repr

namespace Parameter

/-- The long name, which two hyphens go in front of. -/
def name : Parameter → String
  | server => "server"
  | timeout => "timeout-ms"
  | timestampIds => "timestamp-ids"
  | filter => "where"
  | help => "help"
  | version => "version"

/-- The short name, which one hyphen goes in front of. -/
def letter? : Parameter → Option Char
  | server => some 's'
  | timeout => some 't'
  | timestampIds => none
  | filter => none
  | help => some 'h'
  | version => some 'V'

/-- How many values it takes. -/
def arity : Parameter → Nat
  | server | timeout => 1
  | filter => 3
  | timestampIds | help | version => 0

/-- Whether it may be given more than once. -/
def repeats : Parameter → Bool
  | filter => true
  | _ => false

/-- Whether a text will do as a value. -/
def accepts : Parameter → String → Bool
  | timeout, text => (Decimal.readBelow? UInt64.size text.toList).isSome
  | _, _ => true

end Parameter

/-- A word by its looks. -/
inductive Word where
  /-- Two hyphens and nothing else. -/
  | separator
  /-- Two hyphens and a name, with a value after an equals sign or without. -/
  | long (name : String) (value : Option String)
  /-- One hyphen and at least one letter. -/
  | short (letters : List Char)
  /-- Any other, a single hyphen among them. -/
  | plain
  deriving DecidableEq, Repr

def Word.ofText (text : String) : Word :=
  match text.toList with
  | ['-', '-'] => separator
  | '-' :: '-' :: cs =>
    let (name, value) := cutAt '=' cs
    long (String.ofList name) (value.map String.ofList)
  | '-' :: c :: cs => short (c :: cs)
  | _ => plain

/-- Why reading stops before anything is done. -/
inductive Stop where
  /-- The words make no sense. -/
  | misuse
  /-- Help is asked for. -/
  | help
  /-- The version is asked for. -/
  | version
  deriving DecidableEq, Repr

/-- What has been read so far. -/
structure Reading where
  /-- The parameters with their values, in order. -/
  given : List (Parameter × List String) := []
  /-- The parameter that was begun last. Its values are checked when the next parameter or operand
  begins. -/
  begun : Option (Parameter × List String) := none
  operands : List String := []
  deriving DecidableEq, Repr

namespace Reading

/-- Whether the next plain word is a value. -/
def wantsValue (r : Reading) : Bool :=
  match r.begun with
  | some (p, values) => values.length < p.arity
  | none => false

/-- Whether a parameter may stand with these values after those that were given. -/
def allows (r : Reading) (p : Parameter) (values : List String) : Bool :=
  values.length == p.arity && values.all p.accepts && (p.repeats || r.given.all (·.1 ≠ p))

/-- Checks the parameter that was begun last. -/
def settle (r : Reading) : Except Stop Reading :=
  match r.begun with
  | none => .ok r
  | some (p, values) =>
    if r.allows p values then .ok { r with given := r.given ++ [(p, values)], begun := none }
    else .error .misuse

/-- Begins a parameter. With a value attached to it, or without need of one, it is complete. -/
def start (r : Reading) (p : Parameter) (attached : Option String) : Except Stop Reading :=
  match r.settle with
  | .error stop => .error stop
  | .ok r =>
    match p, attached with
    | .help, none => .error .help
    | .version, none => .error .version
    | p, some value => { r with begun := some (p, [value]) }.settle
    | p, none =>
      let r := { r with begun := some (p, []) }
      if p.arity = 0 then r.settle else .ok r

/-- Takes letters that share a hyphen. One that takes a value has the rest for it, and an equals
sign between the two goes. -/
def takeLetters (r : Reading) (parameters : List Parameter) : List Char → Except Stop Reading
  | [] => .ok r
  | c :: cs =>
    match parameters.find? (·.letter? = some c) with
    | none => .error .misuse
    | some p =>
      if p.arity = 0 then
        match r.start p none with
        | .error stop => .error stop
        | .ok r => r.takeLetters parameters cs
      else
        match cs with
        | [] => r.start p none
        | '=' :: value => r.start p (some (String.ofList value))
        | value => r.start p (some (String.ofList value))

/-- Takes a value of the parameter that was begun last. -/
def takeValue (r : Reading) (text : String) : Reading :=
  { r with begun := r.begun.map fun (p, values) => (p, values ++ [text]) }

/-- Takes operands. -/
def takeOperands (r : Reading) (texts : List String) : Except Stop Reading :=
  r.settle.map fun r => { r with operands := r.operands ++ texts }

/-- All values given for a parameter, if it was given. -/
def values? (r : Reading) (p : Parameter) : Option (List String) :=
  match r.given.filter (·.1 = p) with
  | [] => none
  | occurrences => some (occurrences.flatMap (·.2))

end Reading

/-- What may stand on one level of the command line. -/
structure Level where
  parameters : List Parameter
  /-- How many operands at most. -/
  operands : Nat
  deriving DecidableEq, Repr

namespace Level

/-- Reads words as far as they belong to the level; what comes back with the reading begins with the
first plain word that does not. -/
def read (level : Level) (r : Reading) : List String → Except Stop (Reading × List String)
  | [] => .ok (r, [])
  | text :: rest =>
    match Word.ofText text with
    | .separator =>
      if r.operands.length + rest.length > level.operands then .error .misuse
      else (r.takeOperands rest).map fun r => (r, [])
    | .long name value =>
      match level.parameters.find? (·.name = name) with
      | none => .error .misuse
      | some p =>
        match r.start p value with
        | .error stop => .error stop
        | .ok r => level.read r rest
    | .short letters =>
      match r.takeLetters level.parameters letters with
      | .error stop => .error stop
      | .ok r => level.read r rest
    | .plain =>
      if r.wantsValue then level.read (r.takeValue text) rest
      else if r.operands.length < level.operands then
        match r.takeOperands [text] with
        | .error stop => .error stop
        | .ok r => level.read r rest
      else .ok (r, text :: rest)

end Level

end Switchboard.CommandLine
