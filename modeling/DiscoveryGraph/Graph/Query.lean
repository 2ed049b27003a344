import DiscoveryGraph.Graph.Basic
import Std.Data.ExtTreeSet

/-!
# Questions to the graph

Endpoints of a topic are listed by ascending gid, each with the node that owns
it. The owner is looked up among the nodes of the entity's own participant
only. Topics and types are collected under names that a `Demangler` may change;
a topic whose name becomes empty is left out. Nodes are listed by ascending gid
of their participants, then in the order of creation.
-/

namespace DiscoveryGraph

/-- How names on the wire are turned into names for users. -/
structure Demangler where
  topic : String → String
  topicType : String → String

/-- The types of each topic, both in ascending order. -/
abbrev TopicTypes := Std.ExtTreeMap String (Std.ExtTreeSet String)

/-- Enters the topic and the type of an entity. -/
def TopicTypes.enter (d : Demangler) (topics : TopicTypes) (e : Entity) : TopicTypes :=
  let topic := d.topic e.topic
  if topic.isEmpty then topics
  else topics.insert topic ((topics[topic]?.getD ∅).insert (d.topicType e.topicType))

/-- The topics and types of several entities. -/
def TopicTypes.ofEntities (d : Demangler) (entities : List Entity) : TopicTypes :=
  entities.foldl (enter d) ∅

/-- All nodes as parallel lists. -/
structure NodeListing where
  names : List String
  namespaces : List String
  /-- The enclaves of the nodes' participants, if they were asked for. -/
  enclaves : Option (List String)
  deriving DecidableEq

namespace NodeListing

/-- The number of nodes listed. -/
def length (l : NodeListing) : Nat := l.names.length

/-- Whether no node is listed. -/
def isEmpty (l : NodeListing) : Bool := l.names.isEmpty

end NodeListing

namespace Graph

/-- The first node in a list that an endpoint is associated with. -/
def ownerAmong? (nodes : List Node) (kind : EndpointKind) (gid : Gid) : Option Node :=
  nodes.find? fun n => (n.endpoints kind).contains gid

/-- The node that owns an endpoint of a participant. -/
def owner (g : Graph) (participant : Gid) (kind : EndpointKind) (gid : Gid) : NodeName :=
  match g.participants[participant]? with
  | none => .bareParticipant
  | some p =>
      match ownerAmong? p.nodes kind gid with
      | some n => n.toNodeName
      | none => .unknownOwner

/-- The endpoints of one kind on a topic, by ascending gid. -/
def endpointsOn (g : Graph) (kind : EndpointKind) (topic : String)
    (demangleType : String → String) : List EndpointInfo :=
  ((g.entities kind).toList.filter fun (_, e) => e.topic = topic).map fun (gid, e) =>
    { node := g.owner e.participant kind gid
      topicType := demangleType e.topicType
      typeHash := e.typeHash
      kind := kind
      gid := gid
      qos := e.qos }

/-- The number of entities of one kind on a topic. -/
def countOn (g : Graph) (kind : EndpointKind) (topic : String) : Nat :=
  (g.entities kind).values.countP fun e => e.topic = topic

/-- All topics with their types. -/
def topics (g : Graph) (d : Demangler) : TopicTypes :=
  .ofEntities d (g.readers.values ++ g.writers.values)

/-- All nodes, in order. -/
def nodes (g : Graph) : List Node := g.participants.values.flatMap (·.nodes)

/-- The first node of a name. -/
def node? (g : Graph) (name : NodeName) : Option Node :=
  g.nodes.find? fun n => n.toNodeName = name

/-- The topics and types of the endpoints of one kind that are associated with
a node. Endpoints that discovery has not reported do not count. -/
def topicsOf (g : Graph) (kind : EndpointKind) (name : NodeName) (d : Demangler) :
    Except Error TopicTypes :=
  match g.node? name with
  | none => .error (.nodeNameNonExistent name)
  | some n => .ok (.ofEntities d ((n.endpoints kind).filterMap fun gid => (g.entities kind)[gid]?))

/-- The number of nodes. -/
def nodeCount (g : Graph) : Nat :=
  g.participants.values.foldr (fun p count => p.nodes.length + count) 0

/-- Lists all nodes, with the enclaves of their participants if asked. -/
def nodeListing (g : Graph) (withEnclaves : Bool) : NodeListing where
  names := g.nodes.map (·.name)
  namespaces := g.nodes.map (·.ns)
  enclaves :=
    if withEnclaves then
      some (g.participants.values.flatMap fun p => p.nodes.map fun _ => p.enclave)
    else none

end Graph

end DiscoveryGraph
