import Switchboard.CommandLine.Reading
import Switchboard.Json.Reader
import Switchboard.Config

/-!
# Invocations

The command line names a task after the parameters of the program; the words behind it are the
operands and parameters of the task. A task that can be carried out becomes a command.
-/

namespace Switchboard.CommandLine

/-- What the program can be told to do. -/
inductive Task where
  | exists (name : String)
  | create (name : String)
  | get (collection document : String)
  | set (collection document body : String)
  /-- The values of the filter are not sorted out yet. -/
  | list (collection : String) (filter : Option (List String))
  | delete (collection : String) (document : Option String)
  deriving DecidableEq, Repr

/-- Why a task cannot be carried out. -/
inductive Complaint where
  | invalidBody (error : Json.ReadError)
  | unknownComparison (token : String)
  | filterSize
  deriving DecidableEq, Repr

def Complaint.message : Complaint → String
  | invalidBody error => "Invalid JSON value: " ++ error.category
  | unknownComparison token => "Unknown condition operator '" ++ token ++ "'"
  | filterSize => "--where takes exactly KEY OP VALUE"

namespace Task

/-- The condition of the values of a filter. -/
def condition : Option (List String) → Except Complaint (Option Condition)
  | none => .ok none
  | some [key, token, value] =>
    match Condition.ofParts? key token value with
    | some c => .ok (some c)
    | none => .error (.unknownComparison token)
  | some _ => .error .filterSize

/-- The command of a task. The body of a document is read first, so that it goes out compact
whatever its layout was. -/
def command : Task → Except Complaint Command
  | .exists name => .ok (.exists name)
  | .create name => .ok (.create name)
  | .get collection document => .ok (.get collection document)
  | .set collection document body =>
    match Json.read body with
    | .ok v => .ok (.store collection document v)
    | .error e => .error (.invalidBody e)
  | .list collection filter => (condition filter).map (.list collection)
  | .delete collection none => .ok (.deleteCollection collection)
  | .delete collection (some document) => .ok (.deleteDocument collection document)

/-- The word for the tasks of a verb. -/
def word : Verb → String
  | .exists => "exists"
  | .create => "create"
  | .get => "get"
  | .set => "set"
  | .list => "list"
  | .delete => "delete"

/-- All verbs, in the order of the help. -/
def verbs : List Verb := [.exists, .create, .get, .set, .list, .delete]

/-- What may stand behind the word of a verb. -/
def level : Verb → Level
  | .exists | .create => ⟨[.help], 1⟩
  | .get | .delete => ⟨[.help], 2⟩
  | .set => ⟨[.help], 3⟩
  | .list => ⟨[.filter, .help], 1⟩

/-- The task of a verb with what was read behind it, if there are operands enough. -/
def ofReading? (verb : Verb) (r : Reading) : Option Task :=
  match verb, r.operands with
  | .exists, [name] => some (.exists name)
  | .create, [name] => some (.create name)
  | .get, [collection, document] => some (.get collection document)
  | .set, [collection, document, body] => some (.set collection document body)
  | .list, [collection] => some (.list collection (r.values? .filter))
  | .delete, [collection] => some (.delete collection none)
  | .delete, [collection, document] => some (.delete collection (some document))
  | _, _ => none

/-- Reads the words behind the word of a verb; all of them have to belong to it. -/
def read (verb : Verb) (words : List String) : Except Stop Task :=
  match (level verb).read {} words with
  | .error stop => .error stop
  | .ok (_, _ :: _) => .error .misuse
  | .ok (r, []) =>
    match r.settle with
    | .error stop => .error stop
    | .ok r =>
      match ofReading? verb r with
      | some task => .ok task
      | none => .error .misuse

end Task

/-- A command line that makes sense: how to reach the server, and what to do there. -/
structure Invocation where
  config : Config
  task : Task
  deriving DecidableEq, Repr

namespace Invocation

/-- What may stand in front of a task. -/
def level : Level := ⟨[.server, .timeout, .timestampIds, .help, .version], 0⟩

/-- The word that asks for help in place of a task. -/
def helpWord : String := "help"

/-- Words after a request for help: at most one, which has to be known. -/
def readHelp : List String → Stop
  | [] => .help
  | [text] => if text = helpWord ∨ Task.verbs.any (Task.word · = text) then .help else .misuse
  | _ => .misuse

/-- The configuration that the parameters in front of a task ask for. -/
def configure (r : Reading) : Config :=
  let base : Config := {}
  { base with
    serverAddress :=
      match r.values? .server with
      | some [address] => address
      | _ => base.serverAddress
    requestTimeout :=
      match r.values? .timeout with
      | some [text] =>
        match Decimal.readBelow? UInt64.size text.toList with
        | some n => UInt64.ofNat n
        | none => base.requestTimeout
      | _ => base.requestTimeout
    idStrategy := if (r.values? .timestampIds).isSome then .timestamp else base.idStrategy }

/-- Reads a command line. The last parameter in front of a task is checked after the task. -/
def read (words : List String) : Except Stop Invocation :=
  match level.read {} words with
  | .error stop => .error stop
  | .ok (_, []) => .error .misuse
  | .ok (r, text :: rest) =>
    if text = helpWord then .error (readHelp rest)
    else
      match Task.verbs.find? (Task.word · = text) with
      | none => .error .misuse
      | some verb =>
        match Task.read verb rest with
        | .error stop => .error stop
        | .ok task => r.settle.map fun r => { config := configure r, task }

end Invocation

end Switchboard.CommandLine
