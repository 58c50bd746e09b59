import ProbeNet.Packet.Datagram
import ProbeNet.Packet.Flit
import ProbeNet.Flow.Link
import ProbeNet.Flow.Arbiter
import ProbeNet.Subnet
import ProbeNet.Settings.Location
import ProbeNet.Session.Executive
import ProbeNet.Command.Daemon
import ProbeNet.Command.Host
import ProbeNet.Main
import ProbeNet.Proofs.Engine.Refinement
import ProbeNet.Proofs.Engine.Timing
import ProbeNet.Proofs.Session.Turns
import ProbeNet.Proofs.Session.Limit
import ProbeNet.Proofs.Stream.Atomicity
import ProbeNet.Proofs.Event.Delivery
import ProbeNet.Proofs.Subnet.Answers
import ProbeNet.Proofs.Subnet.Progress
import ProbeNet.Proofs.Subnet.Events
import ProbeNet.Proofs.Subnet.Quiet
import ProbeNet.Proofs.Subnet.Routing
import ProbeNet.Proofs.Subnet.Ledger
import ProbeNet.Proofs.Subnet.Egress
import ProbeNet.Proofs.Subnet.Service
import ProbeNet.Proofs.Register.Reads
import ProbeNet.Proofs.Subnet.Discovery
import ProbeNet.Proofs.Subnet.Limit
import ProbeNet.Proofs.Session.Calls
import ProbeNet.Proofs.Session.Runs
import ProbeNet.Proofs.Session.Limit
import ProbeNet.Proofs.Session.Tracking
import ProbeNet.Proofs.Session.Operations
import ProbeNet.Proofs.Session.Execution
import ProbeNet.Proofs.Packet.Datagram
import ProbeNet.Proofs.Session.Responses
import ProbeNet.Proofs.Session.Connecting
import ProbeNet.Proofs.Session.Backlog
import ProbeNet.Proofs.Event.Exactness
import ProbeNet.Proofs.Engine.Calls
import ProbeNet.Proofs.Module.Inbox
import ProbeNet.Proofs.Engine.Effects
import ProbeNet.Proofs.Target.Accounting
import ProbeNet.Proofs.Session.Delivery
import ProbeNet.Proofs.Session.Sending
import ProbeNet.Proofs.Session.Bits
import ProbeNet.Proofs.Event.Fragmentation
import ProbeNet.Proofs.Register.Requests
import ProbeNet.Proofs.Stream.Arbitration
import ProbeNet.Proofs.Stream.Fairness
import ProbeNet.Proofs.Stream.Reading
import ProbeNet.Proofs.Stream.Chain
import ProbeNet.Proofs.Settings.Overrides
