import DiscoveryGraph.Endpoint
import DiscoveryGraph.Error

/-!
# Snapshots of participants

A `Snapshot` is what a participant tells the others about itself: its nodes in
the order of their creation, each with the endpoints associated with it. Names
and gids may repeat.
-/

namespace DiscoveryGraph

/-- A node and the endpoints associated with it. -/
structure Node extends NodeName where
  /-- The associated readers, in the order of association. -/
  readers : List Gid
  /-- The associated writers, in the order of association. -/
  writers : List Gid
  deriving DecidableEq, Inhabited

namespace Node

/-- A node without endpoints. -/
def ofName (name : NodeName) : Node :=
  { toNodeName := name, readers := [], writers := [] }

/-- The associated endpoints of one kind. -/
def endpoints (n : Node) : EndpointKind → List Gid
  | .publisher => n.writers
  | .subscription => n.readers

/-- Changes the list of associated endpoints of one kind. -/
def mapEndpoints (n : Node) (kind : EndpointKind) (f : List Gid → List Gid) : Node :=
  match kind with
  | .publisher => { n with writers := f n.writers }
  | .subscription => { n with readers := f n.readers }

end Node

/-- The nodes of one participant. -/
structure Snapshot where
  participant : Gid
  nodes : List Node
  deriving DecidableEq, Inhabited

/-- The topic on which participants announce themselves. -/
def discoveryTopic : String := "ros_discovery_info"

/-- The type of the announcements. -/
def discoveryType : String := "rmw_dds_common::msg::dds_::ParticipantEntitiesInfo_"

end DiscoveryGraph
