import Switchboard.Client

/-!
# Configuration

What a client is set up with. Times are in milliseconds, and a time of zero means no limit.
-/

namespace Switchboard

/-- The settings of a connection and its client. -/
structure Config where
  /-- Host and port of the server. -/
  serverAddress : String := "127.0.0.1:1337"
  connectTimeout : UInt64 := 5000
  writeTimeout : UInt64 := 5000
  idStrategy : IdStrategy := .counter
  /-- Whether the end of the connection rejects what is still pending. -/
  rejectsOnClose : Bool := true
  /-- How long the client waits for a reply. -/
  requestTimeout : UInt64 := 30000
  deriving DecidableEq, Repr

namespace Config

/-- A time as a limit; zero is none. -/
def limit (time : UInt64) : Option UInt64 := if time > 0 then some time else none

def connectLimit (c : Config) : Option UInt64 := limit c.connectTimeout

def writeLimit (c : Config) : Option UInt64 := limit c.writeTimeout

def requestLimit (c : Config) : Option UInt64 := limit c.requestTimeout

/-- The exchange of a connection that has just been made. -/
def exchange (c : Config) : Exchange := .fresh c.idStrategy c.rejectsOnClose

/-- The client of such a connection. -/
def client (c : Config) : Client := ⟨c.requestLimit⟩

end Config

end Switchboard
