import DiscoveryGraph.Proofs.Graph.Operations
import Mathlib.Data.Finset.Lattice.Lemmas
import Mathlib.Data.Finset.Erase

/-!
# The keys of a graph

The keys of a graph say which writers, readers and participants it has, and
nothing else about them.  An event tells how the keys change, so that whoever
has the keys at some time and hears of all later events can keep them up to
date without asking the graph.
-/

namespace DiscoveryGraph

/-- Which entities and which participants there are. -/
@[ext]
structure Keys where
  entities : Finset (EndpointKind × Gid)
  participants : Finset Gid
  deriving DecidableEq

namespace Keys

def apply (k : Keys) : Event → Keys
  | .entityAdded kind gid => { k with entities := insert (kind, gid) k.entities }
  | .entityRemoved kind gid => { k with entities := k.entities.erase (kind, gid) }
  | .participantChanged gid => { k with participants := insert gid k.participants }
  | .participantRemoved gid => { k with participants := k.participants.erase gid }

def replay (k : Keys) (events : List Event) : Keys := events.foldl apply k

/-- The event enters an entity that is not there, or removes something that is,
or it is about the state of a participant. -/
def Admits (k : Keys) : Event → Prop
  | .entityAdded kind gid => (kind, gid) ∉ k.entities
  | .entityRemoved kind gid => (kind, gid) ∈ k.entities
  | .participantChanged _ => True
  | .participantRemoved gid => gid ∈ k.participants

/-- Each event fits the keys that the events before it lead to. -/
def AdmitsAll (k : Keys) (events : List Event) : Prop :=
  ∀ before e after, events = before ++ e :: after → (k.replay before).Admits e

theorem admitsAll_nil (k : Keys) : k.AdmitsAll [] := by
  intro before e after h
  simp at h

theorem admitsAll_cons {k : Keys} {first : Event} {events : List Event} (h : k.Admits first)
    (hevents : (k.apply first).AdmitsAll events) : k.AdmitsAll (first :: events) := by
  intro before e after hsplit
  cases before with
  | nil =>
      have hfirst : first = e := (List.cons.inj hsplit).1
      rw [hfirst] at h
      exact h
  | cons _ before =>
      obtain ⟨rfl, hrest⟩ := List.cons.inj hsplit
      exact hevents before e after hrest

end Keys

namespace Graph

def keys (g : Graph) : Keys where
  entities :=
    (g.writers.keys.map (EndpointKind.publisher, ·)).toFinset ∪
      (g.readers.keys.map (EndpointKind.subscription, ·)).toFinset
  participants := g.participants.keys.toFinset

variable {g next : Graph} {op : Operation} {r : Reply}

@[simp]
theorem mem_entities_keys {kind : EndpointKind} {gid : Gid} :
    (kind, gid) ∈ g.keys.entities ↔ gid ∈ g.entities kind := by
  cases kind <;> simp [keys, entities]

@[simp]
theorem mem_participants_keys {gid : Gid} :
    gid ∈ g.keys.participants ↔ gid ∈ g.participants := by
  simp [keys]

/-- Two graphs whose entries are under the same gids have the same keys. -/
theorem keys_eq_iff {k : Keys} :
    g.keys = k ↔ (∀ kind gid, gid ∈ g.entities kind ↔ (kind, gid) ∈ k.entities) ∧
      ∀ gid, gid ∈ g.participants ↔ gid ∈ k.participants := by
  rw [Keys.ext_iff, Finset.ext_iff, Finset.ext_iff, Prod.forall]
  simp only [mem_entities_keys, mem_participants_keys]

theorem keys_withParticipant (g : Graph) (gid : Gid) (p : Participant) :
    (g.withParticipant gid p).keys = g.keys.apply (.participantChanged gid) := by
  rw [keys_eq_iff]
  constructor
  · intro kind other
    simp [Keys.apply]
  · intro other
    simp [Keys.apply, Std.ExtTreeMap.mem_insert, eq_comm (a := gid)]

theorem keys_insert_entity (g : Graph) (kind : EndpointKind) (gid : Gid) (e : Entity) :
    (g.withEntities kind ((g.entities kind).insert gid e)).keys =
      g.keys.apply (.entityAdded kind gid) := by
  rw [keys_eq_iff]
  constructor
  · intro other otherGid
    by_cases hkind : other = kind
    · simp [Keys.apply, hkind, Std.ExtTreeMap.mem_insert, eq_comm (a := gid)]
    · simp [Keys.apply, hkind]
  · intro other
    simp [Keys.apply]

theorem keys_erase_entity (g : Graph) (kind : EndpointKind) (gid : Gid) :
    (g.withEntities kind ((g.entities kind).erase gid)).keys =
      g.keys.apply (.entityRemoved kind gid) := by
  rw [keys_eq_iff]
  constructor
  · intro other otherGid
    by_cases hkind : other = kind
    · simp [Keys.apply, hkind, Std.ExtTreeMap.mem_erase, eq_comm (a := gid)]
    · simp [Keys.apply, hkind]
  · intro other
    simp [Keys.apply]

theorem keys_erase_participant (g : Graph) (gid : Gid) :
    { g with participants := g.participants.erase gid }.keys =
      g.keys.apply (.participantRemoved gid) := by
  rw [keys_eq_iff]
  constructor
  · intro kind other
    cases kind <;> simp [Keys.apply, entities]
  · intro other
    simp [Keys.apply, Std.ExtTreeMap.mem_erase, eq_comm (a := gid)]

/-- An operation that has an effect is announced by an event that fits the keys
before it and leads to the keys after it. -/
theorem Effect.keys_eq (h : g.Effect op r next) :
    g.keys.Admits op.event ∧ next.keys = g.keys.apply op.event := by
  cases h with
  | addEntity e habsent =>
      exact ⟨fun hmem => habsent (mem_entities_keys.mp hmem), g.keys_insert_entity _ _ e⟩
  | removeEntity hpresent =>
      exact ⟨mem_entities_keys.mpr hpresent, g.keys_erase_entity _ _⟩
  | removeParticipant hpresent =>
      exact ⟨mem_participants_keys.mpr hpresent, g.keys_erase_participant _⟩
  | addParticipant gid enclave => exact ⟨trivial, g.keys_withParticipant gid _⟩
  | changeNode hpresent hnodes => exact ⟨trivial, g.keys_withParticipant _ _⟩
  | update s => exact ⟨trivial, g.keys_withParticipant s.participant _⟩

end Graph

end DiscoveryGraph
