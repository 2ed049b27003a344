import DiscoveryGraph.Graph.Basic

/-!
# Changes of the graph

Every operation on the graph is a `Change`: either a reply alone, and then the
graph is as it was, or a reply together with the new graph and the one event
that tells what happened. So an operation that fails changes nothing, and one
that changes the graph always says so. An operation may also report an event
whose graph equals the old one.
-/

namespace DiscoveryGraph

/-- What happened to the graph. -/
inductive Event
  /-- An entity was entered. -/
  | entityAdded (kind : EndpointKind) (gid : Gid)
  /-- An entity was removed. -/
  | entityRemoved (kind : EndpointKind) (gid : Gid)
  /-- A participant was entered, or its enclave or its nodes were set. -/
  | participantChanged (gid : Gid)
  /-- A participant was removed. -/
  | participantRemoved (gid : Gid)
  deriving DecidableEq

/-- The outcome of an operation on a graph. -/
inductive Change (reply : Type)
  /-- The graph stays as it was. -/
  | unchanged (r : reply)
  /-- There is a new graph, and an event that tells why. -/
  | changed (r : reply) (graph : Graph) (event : Event)

/-- The reply of an operation. -/
def Change.reply {reply : Type} : Change reply → reply
  | unchanged r => r
  | changed r _ _ => r

/-- The graph after an operation. -/
def Change.graph {reply : Type} (g : Graph) : Change reply → Graph
  | unchanged _ => g
  | changed _ graph _ => graph

/-- The event of an operation, if there is one. -/
def Change.event? {reply : Type} : Change reply → Option Event
  | unchanged _ => none
  | changed _ _ event => some event

/-- The same outcome with another form of reply. -/
def Change.map {α β : Type} (f : α → β) : Change α → Change β
  | unchanged r => unchanged (f r)
  | changed r graph event => changed (f r) graph event

/-- What can be done to the nodes of a participant. -/
inductive NodeAction
  /-- Appends a node without endpoints, even if the name is taken. -/
  | add
  /-- Removes the first node of the name. -/
  | remove
  /-- Associates an endpoint with the first node of the name. -/
  | associate (kind : EndpointKind) (endpoint : Gid)
  /-- Undoes one association of an endpoint with the first node of the name;
  without an association nothing is undone. -/
  | dissociate (kind : EndpointKind) (endpoint : Gid)
  deriving DecidableEq

/-- Replaces the first node of a name by what `f` makes of it, if there is a
node of that name. -/
def replaceNode (name : NodeName) (f : Node → List Node) : List Node → Option (List Node)
  | [] => none
  | n :: rest =>
      if n.toNodeName = name then some (f n ++ rest)
      else (replaceNode name f rest).map (n :: ·)

/-- The nodes after an action on the node `name`, or nothing if the action
needs that node and there is none. -/
def NodeAction.apply (action : NodeAction) (name : NodeName) (nodes : List Node) :
    Option (List Node) :=
  match action with
  | add => some (nodes ++ [.ofName name])
  | remove => replaceNode name (fun _ => []) nodes
  | associate kind endpoint =>
      replaceNode name (fun n => [n.mapEndpoints kind (· ++ [endpoint])]) nodes
  | dissociate kind endpoint =>
      replaceNode name (fun n => [n.mapEndpoints kind (·.erase endpoint)]) nodes

namespace Graph

/-- Enters an entity. An entity that is known already is kept, and the reply is
`false`. -/
def addEntity (g : Graph) (kind : EndpointKind) (gid : Gid) (e : Entity) : Change Bool :=
  if (g.entities kind).contains gid then .unchanged false
  else
    .changed true (g.withEntities kind ((g.entities kind).insert gid e))
      (.entityAdded kind gid)

/-- Removes an entity. The reply is `false` if it was not known. -/
def removeEntity (g : Graph) (kind : EndpointKind) (gid : Gid) : Change Bool :=
  if (g.entities kind).contains gid then
    .changed true (g.withEntities kind ((g.entities kind).erase gid))
      (.entityRemoved kind gid)
  else .unchanged false

/-- The entry of a participant, empty if there is none. -/
def participantOrEmpty (g : Graph) (gid : Gid) : Participant :=
  g.participants[gid]?.getD .empty

/-- Enters a participant, if it is new, and sets its enclave. -/
def addParticipant (g : Graph) (gid : Gid) (enclave : String) : Change Unit :=
  .changed () (g.withParticipant gid { g.participantOrEmpty gid with enclave })
    (.participantChanged gid)

/-- Removes a participant with its nodes. The reply is `false` if it was not
known. -/
def removeParticipant (g : Graph) (gid : Gid) : Change Bool :=
  if g.participants.contains gid then
    .changed true { g with participants := g.participants.erase gid }
      (.participantRemoved gid)
  else .unchanged false

/-- Acts on a node of a participant. The reply is the new snapshot. -/
def changeNode (g : Graph) (gid : Gid) (name : NodeName) (action : NodeAction) :
    Change (Except Error Snapshot) :=
  match g.participants[gid]? with
  | none => .unchanged (.error (.participantNotFound gid))
  | some p =>
      match action.apply name p.nodes with
      | none => .unchanged (.error (.nodeNotFound name))
      | some nodes =>
          .changed (.ok ⟨gid, nodes⟩) (g.withParticipant gid { p with nodes })
            (.participantChanged gid)

/-- Replaces the nodes of a participant by those of a snapshot. A participant
that is new is entered without an enclave. -/
def update (g : Graph) (s : Snapshot) : Change Unit :=
  .changed ()
    (g.withParticipant s.participant
      { g.participantOrEmpty s.participant with nodes := s.nodes })
    (.participantChanged s.participant)

end Graph

/-- An operation that can change a graph. -/
inductive Operation
  | addEntity (kind : EndpointKind) (gid : Gid) (e : Entity)
  | removeEntity (kind : EndpointKind) (gid : Gid)
  | addParticipant (gid : Gid) (enclave : String)
  | removeParticipant (gid : Gid)
  | changeNode (gid : Gid) (name : NodeName) (action : NodeAction)
  | update (s : Snapshot)
  deriving DecidableEq

/-- The reply to an operation. -/
inductive Reply
  | done
  | flag (b : Bool)
  | snapshot (r : Except Error Snapshot)

/-- Carries out an operation. -/
def Graph.perform (g : Graph) : Operation → Change Reply
  | .addEntity kind gid e => (g.addEntity kind gid e).map .flag
  | .removeEntity kind gid => (g.removeEntity kind gid).map .flag
  | .addParticipant gid enclave => (g.addParticipant gid enclave).map fun _ => .done
  | .removeParticipant gid => (g.removeParticipant gid).map .flag
  | .changeNode gid name action => (g.changeNode gid name action).map .snapshot
  | .update s => (g.update s).map fun _ => .done

end DiscoveryGraph
