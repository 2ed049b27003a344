import DiscoveryGraph.Graph.Change

/-!
# What operations do to a graph

An operation is about one gid and, if that is a writer or a reader, about one
kind of endpoint.  It may fail, and then the graph stays as it is.  Otherwise it
has one of the effects below, and the event that announces it is the same
whatever the effect: it depends on the operation alone.
-/

namespace DiscoveryGraph

/-! ## What operations and events are about -/

namespace Event

def gid : Event → Gid
  | entityAdded _ gid => gid
  | entityRemoved _ gid => gid
  | participantChanged gid => gid
  | participantRemoved gid => gid

/-- The kind of endpoint, unless the event is about a participant. -/
def kind? : Event → Option EndpointKind
  | entityAdded kind _ => some kind
  | entityRemoved kind _ => some kind
  | participantChanged _ => none
  | participantRemoved _ => none

end Event

namespace Operation

def gid : Operation → Gid
  | addEntity _ gid _ => gid
  | removeEntity _ gid => gid
  | addParticipant gid _ => gid
  | removeParticipant gid => gid
  | changeNode gid _ _ => gid
  | update s => s.participant

/-- The kind of endpoint, unless the operation is about a participant. -/
def kind? : Operation → Option EndpointKind
  | addEntity kind _ _ => some kind
  | removeEntity kind _ => some kind
  | _ => none

/-- The event that announces the operation if it does not fail. -/
def event : Operation → Event
  | addEntity kind gid _ => .entityAdded kind gid
  | removeEntity kind gid => .entityRemoved kind gid
  | addParticipant gid _ => .participantChanged gid
  | removeParticipant gid => .participantRemoved gid
  | changeNode gid _ _ => .participantChanged gid
  | update s => .participantChanged s.participant

theorem gid_event (op : Operation) : op.event.gid = op.gid := by
  cases op <;> rfl

theorem kind?_event (op : Operation) : op.event.kind? = op.kind? := by
  cases op <;> rfl

end Operation

/-- Whether the reply is `false` or an error. -/
def Reply.isFailure : Reply → Bool
  | done => false
  | flag b => !b
  | snapshot (.ok _) => false
  | snapshot (.error _) => true

/-! ## Effects -/

namespace Graph

/-- `Effect g op r next` says that `op` can be carried out on `g`, that the reply
is then `r`, and that `next` is the graph afterwards. -/
inductive Effect (g : Graph) : Operation → Reply → Graph → Prop
  | addEntity {kind : EndpointKind} {gid : Gid} (e : Entity) (habsent : gid ∉ g.entities kind) :
      Effect g (.addEntity kind gid e) (.flag true)
        (g.withEntities kind ((g.entities kind).insert gid e))
  | removeEntity {kind : EndpointKind} {gid : Gid} (hpresent : gid ∈ g.entities kind) :
      Effect g (.removeEntity kind gid) (.flag true)
        (g.withEntities kind ((g.entities kind).erase gid))
  | addParticipant (gid : Gid) (enclave : String) :
      Effect g (.addParticipant gid enclave) .done
        (g.withParticipant gid { g.participantOrEmpty gid with enclave })
  | removeParticipant {gid : Gid} (hpresent : gid ∈ g.participants) :
      Effect g (.removeParticipant gid) (.flag true)
        { g with participants := g.participants.erase gid }
  | changeNode {gid : Gid} {name : NodeName} {action : NodeAction} {p : Participant}
      {nodes : List Node} (hpresent : g.participants[gid]? = some p)
      (hnodes : action.apply name p.nodes = some nodes) :
      Effect g (.changeNode gid name action) (.snapshot (.ok ⟨gid, nodes⟩))
        (g.withParticipant gid { p with nodes })
  | update (s : Snapshot) :
      Effect g (.update s) .done
        (g.withParticipant s.participant
          { g.participantOrEmpty s.participant with nodes := s.nodes })

variable {g next : Graph} {op : Operation} {r : Reply}

theorem Effect.isFailure_eq_false (h : g.Effect op r next) : r.isFailure = false := by
  cases h <;> rfl

/-- An action on a node either fails or sets the nodes of the participant. -/
theorem changeNode_cases (g : Graph) (gid : Gid) (name : NodeName) (action : NodeAction) :
    (∃ e, g.changeNode gid name action = .unchanged (.error e)) ∨
    ∃ p nodes, g.participants[gid]? = some p ∧ action.apply name p.nodes = some nodes ∧
      g.changeNode gid name action =
        .changed (.ok ⟨gid, nodes⟩) (g.withParticipant gid { p with nodes })
          (.participantChanged gid) := by
  unfold changeNode
  cases hp : g.participants[gid]? with
  | none => exact .inl ⟨_, rfl⟩
  | some p =>
      cases hnodes : action.apply name p.nodes with
      | none => exact .inl ⟨.nodeNotFound name, by simp only [hnodes]⟩
      | some nodes => exact .inr ⟨p, nodes, rfl, hnodes, by simp only [hnodes]⟩

/-- An operation either fails and leaves the graph alone, or it has its effect
and is announced. -/
theorem perform_cases (g : Graph) (op : Operation) :
    (∃ r, r.isFailure = true ∧ g.perform op = .unchanged r) ∨
    ∃ r next, g.Effect op r next ∧ g.perform op = .changed r next op.event := by
  cases op with
  | addEntity kind gid e =>
      by_cases hpresent : gid ∈ g.entities kind
      · exact .inl ⟨.flag false, rfl, by simp [perform, Graph.addEntity, hpresent, Change.map]⟩
      · exact .inr ⟨_, _, .addEntity e hpresent, by
          simp [perform, Graph.addEntity, hpresent, Change.map, Operation.event]⟩
  | removeEntity kind gid =>
      by_cases hpresent : gid ∈ g.entities kind
      · exact .inr ⟨_, _, .removeEntity hpresent, by
          simp [perform, Graph.removeEntity, hpresent, Change.map, Operation.event]⟩
      · exact .inl ⟨.flag false, rfl, by simp [perform, Graph.removeEntity, hpresent, Change.map]⟩
  | addParticipant gid enclave => exact .inr ⟨_, _, .addParticipant gid enclave, rfl⟩
  | removeParticipant gid =>
      by_cases hpresent : gid ∈ g.participants
      · exact .inr ⟨_, _, .removeParticipant hpresent, by
          simp [perform, Graph.removeParticipant, hpresent, Change.map, Operation.event]⟩
      · exact .inl ⟨.flag false, rfl, by
          simp [perform, Graph.removeParticipant, hpresent, Change.map]⟩
  | changeNode gid name action =>
      obtain ⟨e, h⟩ | ⟨p, nodes, hpresent, hnodes, h⟩ := g.changeNode_cases gid name action
      · exact .inl ⟨.snapshot (.error e), rfl, by simp only [perform, h, Change.map]⟩
      · exact .inr ⟨_, _, .changeNode hpresent hnodes, by
          simp only [perform, h, Change.map, Operation.event]⟩
  | update s => exact .inr ⟨_, _, .update s, rfl⟩

end Graph

end DiscoveryGraph
