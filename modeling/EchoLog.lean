import EchoLog.Client.Wire
import EchoLog.Exchange.Basic
import EchoLog.Main
import EchoLog.Proofs.Client.Reading
import EchoLog.Proofs.Command.Detached
import EchoLog.Proofs.Command.Overrides
import EchoLog.Proofs.Disk.Changes
import EchoLog.Proofs.Exchange.Agreement
import EchoLog.Proofs.Framing.Dropping
import EchoLog.Proofs.Framing.Oversized
import EchoLog.Proofs.Framing.Position
import EchoLog.Proofs.Framing.Searches
import EchoLog.Proofs.Net.ListenAddress
import EchoLog.Proofs.Roster.Histories
import EchoLog.Proofs.Roster.Lingering
import EchoLog.Proofs.Roster.Reports
import EchoLog.Proofs.Service.Clients
import EchoLog.Proofs.Service.Start
import EchoLog.Proofs.Service.Stragglers
import EchoLog.Proofs.Service.Writers
import EchoLog.Proofs.Session.Alone
import EchoLog.Proofs.Session.Held
import EchoLog.Proofs.Settings.Respelling
import EchoLog.Proofs.SharedLog.Missing
import EchoLog.Proofs.SharedLog.Unblocked
import EchoLog.Proofs.Store.Disturbed
import EchoLog.Proofs.Store.Rollback
import EchoLog.Script.Peer
