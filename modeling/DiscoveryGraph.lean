import DiscoveryGraph.Context.Basic
import DiscoveryGraph.Demangling
import DiscoveryGraph.FileTree
import DiscoveryGraph.Graph.Cache
import DiscoveryGraph.Graph.Resolution
import DiscoveryGraph.Graph.Report
import DiscoveryGraph.Qos.Compatibility
import DiscoveryGraph.Qos.Resolution
import DiscoveryGraph.Settings
import DiscoveryGraph.Snapshot.Codec
import DiscoveryGraph.TypeHash.UserData
import DiscoveryGraph.Proofs.Cdr.Layout
import DiscoveryGraph.Proofs.Cdr.Writing
import DiscoveryGraph.Proofs.Text.Utf8
import DiscoveryGraph.Proofs.Cdr.Reading
import DiscoveryGraph.Proofs.Cdr.Progress
import DiscoveryGraph.Proofs.Cdr.Growth
import DiscoveryGraph.Proofs.Cdr.Replay
import DiscoveryGraph.Proofs.Cdr.Addressing
import DiscoveryGraph.Proofs.Cdr.Checked
import DiscoveryGraph.Proofs.Cdr.Appending
import DiscoveryGraph.Proofs.Cdr.Buffering
import DiscoveryGraph.Proofs.Snapshot.Layout
import DiscoveryGraph.Proofs.Snapshot.Codec
import DiscoveryGraph.Proofs.Snapshot.RoundTrip
import DiscoveryGraph.Proofs.Snapshot.Truncation
import DiscoveryGraph.Proofs.Snapshot.Reservation
import DiscoveryGraph.Proofs.Snapshot.Refusal
import DiscoveryGraph.Proofs.Snapshot.Room
import DiscoveryGraph.Proofs.Gid
import DiscoveryGraph.Proofs.Duration
import DiscoveryGraph.Proofs.Duration.Span
import DiscoveryGraph.Proofs.Duration.Clamp
import DiscoveryGraph.Proofs.Qos.SubscriptionResolution
import DiscoveryGraph.Proofs.Context.Calls
import DiscoveryGraph.Proofs.Context.Messages
import DiscoveryGraph.Proofs.Network.Basic
import DiscoveryGraph.Proofs.Network.Chronicle
import DiscoveryGraph.Proofs.Network.Invariant
import DiscoveryGraph.Proofs.Network.Convergence
import DiscoveryGraph.Proofs.Qos.PublisherResolution
import DiscoveryGraph.Proofs.Graph.Keys
import DiscoveryGraph.Proofs.Cache.Notification
import DiscoveryGraph.Proofs.Cache.Reception
import DiscoveryGraph.Proofs.Cache.Subscription
import DiscoveryGraph.Proofs.Cache.Replay
import DiscoveryGraph.Proofs.Cache.Participants
import DiscoveryGraph.Proofs.Context.Listening
import DiscoveryGraph.Proofs.Context.Publication
import DiscoveryGraph.Proofs.Graph.Independence
import DiscoveryGraph.Proofs.Graph.Places
import DiscoveryGraph.Proofs.Graph.Endpoints
import DiscoveryGraph.Proofs.Graph.Topics
import DiscoveryGraph.Proofs.Cache.Reordering
import DiscoveryGraph.Proofs.Cache.Associations
import DiscoveryGraph.Proofs.TypeHash.UserData
import DiscoveryGraph.Proofs.Qos.Truncation
import DiscoveryGraph.Proofs.Settings
import DiscoveryGraph.Proofs.Security.Resolution
import DiscoveryGraph.Proofs.Security.EnclaveRoot
import DiscoveryGraph.Proofs.Qos.Monotonicity
import DiscoveryGraph.Proofs.Qos.Spelling
import DiscoveryGraph.Proofs.Context.Noticing
import DiscoveryGraph.Proofs.Context.Mailroom
import DiscoveryGraph.Proofs.Context.Mailbox
import DiscoveryGraph.Proofs.Context.Lifecycle
import DiscoveryGraph.Proofs.Qos.Overflow
import DiscoveryGraph.Proofs.Qos.Explanation
import DiscoveryGraph.Proofs.Qos.Settling
import DiscoveryGraph.Proofs.Qos.PeerSets
import DiscoveryGraph.Proofs.Qos.Lookup
import DiscoveryGraph.Proofs.TypeHash.Grammar
import DiscoveryGraph.Proofs.TypeHash.Announcement
