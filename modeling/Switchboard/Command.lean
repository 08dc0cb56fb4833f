import Switchboard.Json.Printer

/-!
# Commands

What a document server can be asked to do. A command is written as its verb and its arguments, with
single blanks between them.
-/

namespace Switchboard

/-- The verbs of the wire. -/
inductive Verb where
  | exists
  | create
  | get
  | set
  | list
  | delete
  deriving DecidableEq, Repr

/-- The token of a verb. -/
def Verb.token : Verb → String
  | .exists => "EXISTS"
  | .create => "CREATE"
  | .get => "GET"
  | .set => "SET"
  | .list => "LIST"
  | .delete => "DELETE"

/-- How a condition compares. -/
inductive Comparison where
  | equal
  | greater
  | less
  deriving DecidableEq, Repr

namespace Comparison

/-- The token of a comparison. -/
def token : Comparison → String
  | equal => "EQ"
  | greater => "GT"
  | less => "LT"

/-- The comparison of a token, in upper, lower or mixed case of ASCII letters. -/
def ofToken? (token : String) : Option Comparison :=
  let upper := token.toList.map Char.toUpper
  if upper = ['E', 'Q'] then some equal
  else if upper = ['G', 'T'] then some greater
  else if upper = ['L', 'T'] then some less
  else none

end Comparison

/-- A filter on the documents of a collection. -/
structure Condition where
  key : String
  comparison : Comparison
  value : String
  deriving DecidableEq, Repr

/-- The condition with a comparison given by its token, if there is such a comparison. -/
def Condition.ofParts? (key token value : String) : Option Condition :=
  (Comparison.ofToken? token).map fun comparison => { key, comparison, value }

/-- A command for a document server. -/
inductive Command where
  /-- Ask whether a collection exists. -/
  | exists (name : String)
  /-- Create a collection. -/
  | create (name : String)
  /-- Fetch a document. -/
  | get (collection document : String)
  /-- Create or replace a document; the body is JSON text. -/
  | set (collection document body : String)
  /-- List the documents of a collection, all or those that meet a condition. -/
  | list (collection : String) (condition : Option Condition)
  /-- Delete a whole collection. -/
  | deleteCollection (collection : String)
  /-- Delete one document. -/
  | deleteDocument (collection document : String)
  deriving DecidableEq, Repr

namespace Command

/-- The command that stores a JSON value, written compactly. -/
def store (collection document : String) (v : Json) : Command :=
  .set collection document v.compact

/-- The command that stores a value of the caller's own type. -/
def storeAs (encoder : Json.Encoder α) (collection document : String) (a : α) :
    Except Json.ReadError Command :=
  (encoder a).map (.set collection document)

/-- The verb of a command. Both ways to delete share one. -/
def verb : Command → Verb
  | .exists _ => .exists
  | .create _ => .create
  | .get _ _ => .get
  | .set _ _ _ => .set
  | .list _ _ => .list
  | .deleteCollection _ => .delete
  | .deleteDocument _ _ => .delete

/-- The arguments of a command, in the order of the wire. -/
def arguments : Command → List String
  | .exists name => [name]
  | .create name => [name]
  | .get collection document => [document, "FROM", collection]
  | .set collection document body => [document, "FROM", collection, "TO", body]
  | .list collection none => [collection]
  | .list collection (some c) => [collection, "WHERE", c.key, c.comparison.token, c.value]
  | .deleteCollection collection => [collection]
  | .deleteDocument collection document => [document, "FROM", collection]

end Command

/-- A verb with arguments after it, each with a blank in front. -/
def spellRequest (verb : String) (arguments : List String) : String :=
  arguments.foldl (fun text argument => text ++ " " ++ argument) verb

/-- The text of a command. -/
def Command.text (c : Command) : String := spellRequest c.verb.token c.arguments

end Switchboard
