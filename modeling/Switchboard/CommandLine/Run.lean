import Switchboard.CommandLine.Invocation
import Switchboard.Connection

/-!
# Runs of the program

A run carries out one command: it reads the command line, connects, sends the request, waits for
the reply and reports. Nothing is sent, and no connection made, unless the command line makes sense
and its task can be carried out. The exit code is zero exactly when the server reports success, or
when only help or the version was asked for.
-/

namespace Switchboard.CommandLine

/-- How a run ends. -/
structure Ending where
  exitCode : Nat
  /-- What goes to standard output. -/
  output : String := ""
  /-- What goes to the log, if the run fails on its own account. -/
  complaint : Option String := none
  deriving DecidableEq, Repr

/-- The name of the program. -/
def program : String := "docmux-cli"

/-- The version of the program. -/
def programVersion : String := "0.1.0"

/-- What the program says when it is asked for help. -/
def helpText : String := String.intercalate "\n" [
  "CLI for JSON document servers",
  "",
  "Usage: " ++ program ++ " [OPTIONS] <COMMAND>",
  "",
  "Commands:",
  "  exists  Check whether a collection exists",
  "  create  Create a collection",
  "  get     Get a document",
  "  set     Create or replace a document",
  "  list    List the documents of a collection",
  "  delete  Delete a collection, or one document of it",
  "  help    Print this message or the help of the given subcommand(s)",
  "",
  "Options:",
  "  -s, --server <SERVER>          Server address [default: 127.0.0.1:1337]",
  "  -t, --timeout-ms <TIMEOUT_MS>  Reply timeout in milliseconds (0 waits forever) [default: 30000]",
  "      --timestamp-ids            Use timestamp-shaped request identifiers",
  "  -h, --help                     Print help",
  "  -V, --version                  Print version"]

namespace Ending

/-- Reading the command line came to a stop. -/
def ofStop : Stop → Ending
  | .misuse => { exitCode := 2 }
  | .help => { exitCode := 0, output := helpText ++ "\n" }
  | .version => { exitCode := 0, output := program ++ " " ++ programVersion ++ "\n" }

/-- The task cannot be carried out. -/
def ofComplaint (complaint : Complaint) : Ending :=
  { exitCode := 2, complaint := some complaint.message }

/-- The server cannot be reached. -/
def unreached (c : Config) (failure : Failure) : Ending :=
  { exitCode := 1
    complaint := some ("Failed to connect to " ++ c.serverAddress ++ ": " ++ failure.message) }

/-- The request has an outcome. -/
def ofOutcome (verb : Verb) : Outcome → Ending
  | .ok data => { exitCode := 0, output := data.pretty ++ "\n" }
  | .error failure =>
    { exitCode := 1, complaint := some (verb.token ++ " failed: " ++ failure.message) }

end Ending

/-- What is left to do once the command line has been read. -/
structure Plan where
  config : Config
  command : Command

namespace Plan

/-- The plan of a command line, or the end of the run. -/
def ofWords (words : List String) : Except Ending Plan :=
  match Invocation.read words with
  | .error stop => .error (.ofStop stop)
  | .ok invocation =>
    match invocation.task.command with
    | .error complaint => .error (.ofComplaint complaint)
    | .ok command => .ok { config := invocation.config, command }

/-- The connection with the request on it. -/
def launch (p : Plan) (now : UInt64) : Dispatched × Connection :=
  (Connection.fresh p.config).dispatch now p.command.verb.token p.command.arguments

/-- The end of the run, after all that the connection has seen; `none` if the wait goes on. -/
def conclude (p : Plan) (c : Connection) (ticket : Ticket) : Option Ending :=
  (p.config.client.wait c.exchange ticket).1.map (Ending.ofOutcome p.command.verb)

end Plan

/-- The other end of a connection: what it sends once it has the request, and whether it stops
sending then. -/
structure Peer where
  answer : List UInt8
  hangsUp : Bool

/-- What a peer does to a connection. -/
def Peer.serve (peer : Peer) (c : Connection) : Connection :=
  let c := c.receive peer.answer
  if peer.hangsUp then c.endOfStream else c

/-- A run as seen from outside. -/
structure Transcript where
  /-- Whether a connection was made. -/
  connected : Bool
  /-- The bytes that were sent. -/
  sent : List UInt8
  /-- The end; `none` if the wait goes on. -/
  ending : Option Ending

/-- The run in a world that says which peer answers at the server of a configuration, or why none
does. What a peer sends may depend on the request. -/
def run (words : List String) (now : UInt64) (reach : Config → Except Failure (Dispatched → Peer)) :
    Transcript :=
  match Plan.ofWords words with
  | .error ending => { connected := false, sent := [], ending := some ending }
  | .ok plan =>
    match reach plan.config with
    | .error failure =>
      { connected := false, sent := [], ending := some (.unreached plan.config failure) }
    | .ok peer =>
      let (request, connection) := plan.launch now
      { connected := true
        sent := connection.written
        ending := plan.conclude ((peer request).serve connection) request.ticket }

end Switchboard.CommandLine
