import DiscoveryGraph.Snapshot
import Std.Data.ExtTreeMap

/-!
# The discovery graph

A `Graph` holds the writers and readers that discovery has reported and the
participants that have announced themselves. An entity names its participant,
and a participant lists its nodes with the gids of their endpoints; neither
side has to be known for the other to be entered. All three maps are ordered by
gid, and two maps with the same entries are equal.
-/

namespace DiscoveryGraph

/-- A map from gids, in ascending order. -/
abbrev GidMap (value : Type) := Std.ExtTreeMap Gid value

/-- A writer or reader as discovery reports it. -/
structure Entity where
  topic : String
  topicType : String
  typeHash : TypeHash
  participant : Gid
  qos : Profile
  deriving DecidableEq

/-- A participant: its enclave and its nodes in the order of creation. -/
structure Participant where
  enclave : String
  nodes : List Node
  deriving DecidableEq

/-- A participant of which nothing is known yet. -/
def Participant.empty : Participant := ⟨"", []⟩

instance : Inhabited Participant := ⟨.empty⟩

/-- What a participant tells the others about itself. -/
def Participant.snapshot (p : Participant) (gid : Gid) : Snapshot := ⟨gid, p.nodes⟩

/-- Everything known about writers, readers and participants. -/
@[ext]
structure Graph where
  writers : GidMap Entity
  readers : GidMap Entity
  participants : GidMap Participant

namespace Graph

/-- The graph in which nothing is known. -/
def empty : Graph := ⟨∅, ∅, ∅⟩

instance : Inhabited Graph := ⟨empty⟩

/-- The entities of one kind. -/
def entities (g : Graph) : EndpointKind → GidMap Entity
  | .publisher => g.writers
  | .subscription => g.readers

/-- The graph with other entities of one kind. -/
def withEntities (g : Graph) (kind : EndpointKind) (entities : GidMap Entity) : Graph :=
  match kind with
  | .publisher => { g with writers := entities }
  | .subscription => { g with readers := entities }

/-- The graph with one participant set. -/
def withParticipant (g : Graph) (gid : Gid) (p : Participant) : Graph :=
  { g with participants := g.participants.insert gid p }

/-- What a participant of the graph tells the others about itself. -/
def snapshot? (g : Graph) (participant : Gid) : Option Snapshot :=
  g.participants[participant]?.map (·.snapshot participant)

@[simp]
theorem entities_withEntities (g : Graph) (kind other : EndpointKind)
    (entities : GidMap Entity) :
    (g.withEntities kind entities).entities other =
      if other = kind then entities else g.entities other := by
  cases kind <;> cases other <;> simp [Graph.entities, withEntities]

@[simp]
theorem participants_withEntities (g : Graph) (kind : EndpointKind)
    (entities : GidMap Entity) :
    (g.withEntities kind entities).participants = g.participants := by
  cases kind <;> rfl

@[simp]
theorem entities_withParticipant (g : Graph) (gid : Gid) (p : Participant)
    (kind : EndpointKind) :
    (g.withParticipant gid p).entities kind = g.entities kind := by
  cases kind <;> rfl

@[simp]
theorem participants_withParticipant (g : Graph) (gid : Gid) (p : Participant) :
    (g.withParticipant gid p).participants = g.participants.insert gid p := rfl

end Graph

end DiscoveryGraph
