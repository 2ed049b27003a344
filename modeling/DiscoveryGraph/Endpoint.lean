import DiscoveryGraph.Qos.Profile
import DiscoveryGraph.TypeHash

/-!
# Endpoints of a topic

An endpoint is a publisher or a subscription. What is known about one is
collected in an `EndpointInfo`, including the node that owns it or, where the
owner is not known, a placeholder.
-/

namespace DiscoveryGraph

/-- The two kinds of endpoints. Writers are publishers and readers are
subscriptions. -/
inductive EndpointKind
  | publisher
  | subscription
  deriving DecidableEq, Inhabited, Repr

namespace EndpointKind

/-- The kind that an endpoint of this kind is matched with. -/
def opposite : EndpointKind → EndpointKind
  | publisher => subscription
  | subscription => publisher

/-- Whether endpoints of this kind read. -/
def isReader (kind : EndpointKind) : Bool := kind = subscription

end EndpointKind

/-- The owner of an endpoint that no node of its participant lists. -/
def NodeName.unknownOwner : NodeName :=
  ⟨"_NODE_NAME_UNKNOWN_", "_NODE_NAMESPACE_UNKNOWN_"⟩

/-- The owner of an endpoint whose participant is not in the graph. -/
def NodeName.bareParticipant : NodeName :=
  ⟨"_CREATED_BY_BARE_DDS_APP_", "_CREATED_BY_BARE_DDS_APP_"⟩

/-- What is known about one endpoint of a topic. -/
structure EndpointInfo where
  node : NodeName
  topicType : String
  typeHash : TypeHash
  kind : EndpointKind
  gid : Gid
  qos : Profile
  deriving DecidableEq

/-- An endpoint of which only the kind and the settings are known. -/
def EndpointInfo.ofProfile (kind : EndpointKind) (qos : Profile) : EndpointInfo where
  node := ⟨"", ""⟩
  topicType := ""
  typeHash := .unset
  kind := kind
  gid := .padded []
  qos := qos

end DiscoveryGraph
