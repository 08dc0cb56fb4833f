import Switchboard.FrameChannel
import Switchboard.Main
import Switchboard.Registry
import Switchboard.Proofs.Exchange.Endings
import Switchboard.Proofs.Exchange.Accounts
import Switchboard.Proofs.Exchange.Closing
import Switchboard.Proofs.Exchange.Views
import Switchboard.Proofs.Exchange.DeliveryOrder
import Switchboard.Proofs.Connection.Inbound
import Switchboard.Connection.Run
import Switchboard.Proofs.Connection.Traffic
import Switchboard.Proofs.Connection.Outbound
import Switchboard.Proofs.Connection.Ending
import Switchboard.Proofs.Json.Tokens
import Switchboard.Proofs.Json.RoundTrip
import Switchboard.Proofs.Reply
import Switchboard.Proofs.Exchange.Storage
import Switchboard.Proofs.Exchange.Matching
import Switchboard.Proofs.Exchange.Rollback
import Switchboard.Proofs.Registry.Ledger
import Switchboard.Proofs.Registry.Refinement
import Switchboard.Proofs.Registry.OneShot
import Switchboard.Proofs.Frame
import Switchboard.Exchange.Interleaving
import Switchboard.Proofs.CommandLine.Reading
import Switchboard.Proofs.CommandLine.Verdict
import Switchboard.Proofs.Interleaving.Departure
import Switchboard.Proofs.Interleaving.LateReply
import Switchboard.Proofs.Command
import Switchboard.Proofs.Connection.CutOff
import Switchboard.Proofs.Client
import Switchboard.Proofs.Json.Grammar
import Switchboard.Proofs.Json.Taking
import Switchboard.Proofs.Envelope
import Switchboard.Proofs.IdSource
import Switchboard.Proofs.Token
import Switchboard.Proofs.Json.Controls
import Switchboard.Proofs.CommandLine.Storing
