import ShowRelay.CommandLine
import ShowRelay.Config.Basic
import ShowRelay.Config.Document
import ShowRelay.Decimal.Shortest
import ShowRelay.Delta
import ShowRelay.Disk.Basic
import ShowRelay.Disk.Folder
import ShowRelay.Disk.Path
import ShowRelay.Disk.Place
import ShowRelay.Disk.Staging
import ShowRelay.Http.Percent
import ShowRelay.Http.Route
import ShowRelay.Hub.Basic
import ShowRelay.Hub.Rehearsal
import ShowRelay.Hub.Step
import ShowRelay.Json.Fault
import ShowRelay.Json.Number
import ShowRelay.Json.Reader
import ShowRelay.Json.Writer
import ShowRelay.LogRecord
import ShowRelay.Mailbox
import ShowRelay.Main
import ShowRelay.Net.Ip
import ShowRelay.Net.Link
import ShowRelay.Net.SocketAddress
import ShowRelay.Osc
import ShowRelay.Relay.Connection
import ShowRelay.Relay.Frame
import ShowRelay.Relay.Performance
import ShowRelay.Relay.Start
import ShowRelay.Relay.Step
import ShowRelay.Request
import ShowRelay.Session
import ShowRelay.Sink.Basic
import ShowRelay.Sink.Udp
import ShowRelay.Snapshot.Archive
import ShowRelay.Snapshot.Name
import ShowRelay.Snapshot.Saving
import ShowRelay.StopSignal
import ShowRelay.Store
import ShowRelay.SystemFault
import ShowRelay.Table
import ShowRelay.Text.Cut
import ShowRelay.Text.Invisible
import ShowRelay.Text.Numeral
import ShowRelay.Text.Quoted
import ShowRelay.Text.Utf8
import ShowRelay.Proofs.Table
import ShowRelay.Proofs.Utf8
import ShowRelay.Proofs.Osc
import ShowRelay.Proofs.Hub.History
import ShowRelay.Proofs.Hub.Coherence
import ShowRelay.Proofs.Hub.Delivery
import ShowRelay.Proofs.Codec
import ShowRelay.Proofs.Hub.Broadcast
import ShowRelay.Proofs.Hub.Merging
import ShowRelay.Proofs.Hub.Saving
import ShowRelay.Proofs.Hub.Exchange
import ShowRelay.Proofs.Hub.Hearing
import ShowRelay.Proofs.Snapshot.Naming
import ShowRelay.Proofs.Snapshot.Entries
import ShowRelay.Proofs.Snapshot.Atomicity
import ShowRelay.Proofs.Snapshot.Refinement
import ShowRelay.Proofs.Relay.Restoring
import ShowRelay.Proofs.Relay.Move
import ShowRelay.Proofs.Relay.Inbound
import ShowRelay.Proofs.Relay.Outbound
import ShowRelay.Proofs.Relay.Ordering
import ShowRelay.Proofs.Canonical
import ShowRelay.Proofs.Hub.Datagrams
import ShowRelay.Proofs.Hub.Ideal
import ShowRelay.Proofs.Snapshot.Paths
import ShowRelay.Proofs.Snapshot.Links
import ShowRelay.Proofs.Snapshot.Frame
import ShowRelay.Proofs.Snapshot.Diverting
import ShowRelay.Proofs.Snapshot.Alike
import ShowRelay.Proofs.Relay.Alike
import ShowRelay.Proofs.Relay.Confinement
import ShowRelay.Proofs.Http.Escaping
import ShowRelay.Proofs.Http.Pieces
import ShowRelay.Proofs.Http.Scanning
import ShowRelay.Proofs.Hub.Interleaving
import ShowRelay.Proofs.Snapshot.Listing
import ShowRelay.Proofs.Hub.Acknowledgment
import ShowRelay.Proofs.Hub.Rounds
import ShowRelay.Proofs.Hub.Eviction
import ShowRelay.Proofs.Http.Serving
import ShowRelay.Proofs.Messages
import ShowRelay.Proofs.Snapshot.Touching
import ShowRelay.Proofs.Text
import ShowRelay.Proofs.Net.Ip
import ShowRelay.Proofs.Osc.Truncation
import ShowRelay.Proofs.Json.Values
import ShowRelay.Proofs.Json.Commas
import ShowRelay.Proofs.Config.Sinks
import ShowRelay.Proofs.Config.CommandLine
import ShowRelay.Proofs.Config.Document
