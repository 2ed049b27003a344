import DiscoveryGraph.Graph.Query
import DiscoveryGraph.Proofs.Graph.Entries
import Mathlib.Data.List.Basic

/-!
# The places of nodes

A node has a place: its participant, and its position among the nodes of that
participant.  Places are ordered by ascending gid of the participant and then by the
creation of the nodes.  All questions about nodes go through the places in this order:
the nodes are counted and listed so, and the node of a name is the first one that is
found so.
-/

namespace DiscoveryGraph

theorem values_eq_map_toList {value : Type} (m : GidMap value) :
    m.values = m.toList.map (·.2) := by
  calc
    m.values = m.foldr (fun _ v values => v :: values) [] := rfl
    _ = m.toList.foldr (fun entry values => entry.2 :: values) [] :=
      Std.ExtTreeMap.foldr_eq_foldr_toList
    _ = m.toList.map (·.2) := List.map_eq_foldr.symm

theorem mem_values_iff {value : Type} {m : GidMap value} {v : value} :
    v ∈ m.values ↔ ∃ gid : Gid, m[gid]? = some v := by
  rw [values_eq_map_toList, List.mem_map]
  simp only [Prod.exists, Std.ExtTreeMap.mem_toList_iff_getElem?_eq_some, exists_eq_right]

/-- Where a node stands: at a position in the list of nodes of a participant. -/
structure Place where
  participant : Gid
  index : Nat
  deriving DecidableEq

namespace Place

/-- The place comes first: its participant has the smaller gid, or the participant is the
same and the position is smaller. -/
def Precedes (a b : Place) : Prop :=
  compare a.participant b.participant = .lt ∨
    a.participant = b.participant ∧ a.index < b.index

variable {a b : Place}

theorem Precedes.asymm (hab : a.Precedes b) : ¬ b.Precedes a := by
  intro hba
  rcases hab with hlt | ⟨heq, hindex⟩ <;> rcases hba with hlt' | ⟨heq', hindex'⟩
  · exact Std.OrientedCmp.not_lt_of_lt hlt hlt'
  · rw [heq', Std.compare_self] at hlt
    contradiction
  · rw [heq, Std.compare_self] at hlt'
    contradiction
  · exact Nat.lt_asymm hindex hindex'

theorem not_precedes_self (a : Place) : ¬ a.Precedes a := fun h => h.asymm h

theorem precedes_or_eq_or_precedes (a b : Place) :
    a.Precedes b ∨ a = b ∨ b.Precedes a := by
  obtain ⟨participant, index⟩ := a
  obtain ⟨other, position⟩ := b
  cases hcompare : compare participant other with
  | lt => exact .inl (.inl hcompare)
  | gt => exact .inr (.inr (.inl (Std.OrientedCmp.gt_iff_lt.mp hcompare)))
  | eq =>
      obtain rfl : participant = other := Std.LawfulEqOrd.eq_of_compare hcompare
      rcases Nat.lt_trichotomy index position with hlt | rfl | hlt
      · exact .inl (.inr ⟨rfl, hlt⟩)
      · exact .inr (.inl rfl)
      · exact .inr (.inr (.inr ⟨rfl, hlt⟩))

end Place

/-- The listing has this node and this enclave in its position `i`. -/
structure NodeListing.Shows (l : NodeListing) (i : Nat) (n : Node) (enclave : String) : Prop where
  name_eq : l.names[i]? = some n.name
  ns_eq : l.namespaces[i]? = some n.ns
  enclave_eq : ∃ enclaves, l.enclaves = some enclaves ∧ enclaves[i]? = some enclave

namespace Graph

/-- The places of all nodes, in their order. -/
def places (g : Graph) : List Place :=
  g.participants.toList.flatMap fun (gid, p) => (List.range p.nodes.length).map (Place.mk gid)

/-- The node at a place, if there is one. -/
def nodeAt? (g : Graph) (place : Place) : Option Node :=
  g.participants[place.participant]?.bind (·.nodes[place.index]?)

/-- The enclave of the participant of a place, if the participant is known. -/
def enclaveAt? (g : Graph) (place : Place) : Option String :=
  g.participants[place.participant]?.map (·.enclave)

variable {g : Graph} {place : Place} {name : NodeName} {n : Node}

theorem nodeAt?_eq_some_iff :
    g.nodeAt? place = some n ↔
      ∃ p, g.participants[place.participant]? = some p ∧ p.nodes[place.index]? = some n :=
  Option.bind_eq_some_iff

/-- The places are those where there is a node. -/
theorem mem_places_iff : place ∈ g.places ↔ ∃ n, g.nodeAt? place = some n := by
  obtain ⟨participant, index⟩ := place
  simp only [places, List.mem_flatMap, List.mem_map, List.mem_range, Prod.exists,
    Std.ExtTreeMap.mem_toList_iff_getElem?_eq_some, Place.mk.injEq, nodeAt?_eq_some_iff]
  constructor
  · rintro ⟨gid, p, hp, k, hk, rfl, rfl⟩
    exact ⟨p.nodes[k], p, hp, List.getElem?_eq_getElem hk⟩
  · rintro ⟨n, p, hp, hn⟩
    obtain ⟨hindex, -⟩ := List.getElem?_eq_some_iff.mp hn
    exact ⟨participant, p, hp, index, hindex, rfl, rfl⟩

theorem pairwise_places (g : Graph) : g.places.Pairwise Place.Precedes := by
  rw [places, List.pairwise_flatMap]
  constructor
  · intro entry _
    rw [List.pairwise_map]
    exact List.pairwise_lt_range.imp fun hlt => .inr ⟨rfl, hlt⟩
  · refine Std.ExtTreeMap.ordered_keys_toList.imp ?_
    intro entry later hlt a ha b hb
    obtain ⟨i, -, rfl⟩ := List.mem_map.mp ha
    obtain ⟨j, -, rfl⟩ := List.mem_map.mp hb
    exact .inl hlt

/-- What is put together from one entry for each node of each participant stands in the
order of the places. -/
theorem map_places_eq {α : Type} {f : Place → Option α} {entries : Participant → List α}
    (h : ∀ gid p, g.participants[gid]? = some p →
      (List.range p.nodes.length).map (fun k => f ⟨gid, k⟩) = (entries p).map some) :
    g.places.map f = (g.participants.values.flatMap entries).map some := by
  rw [values_eq_map_toList, places, List.map_flatMap, List.flatMap_map, List.map_flatMap]
  refine List.flatMap_congr fun entry hentry => ?_
  rw [List.map_map]
  exact h entry.1 entry.2 (Std.ExtTreeMap.mem_toList_iff_getElem?_eq_some.mp hentry)

theorem map_nodeAt?_places (g : Graph) : g.places.map g.nodeAt? = g.nodes.map some := by
  refine map_places_eq fun gid p hp => ?_
  refine List.ext_getElem (by simp) fun k hk _ => ?_
  have hindex : k < p.nodes.length := by simpa using hk
  simp [nodeAt?, hp, hindex]

theorem map_enclaveAt?_places (g : Graph) :
    g.places.map g.enclaveAt? =
      (g.participants.values.flatMap fun p => p.nodes.map fun _ => p.enclave).map some := by
  refine map_places_eq fun gid p hp => ?_
  refine List.ext_getElem (by simp) fun k hk _ => ?_
  simp [enclaveAt?, hp]

theorem length_places (g : Graph) : g.places.length = g.nodes.length := by
  have hlength := congrArg List.length g.map_nodeAt?_places
  rwa [List.length_map, List.length_map] at hlength

theorem nodeCount_eq_length (g : Graph) : g.nodeCount = g.nodes.length := by
  rw [nodeCount, nodes]
  induction g.participants.values with
  | nil => rfl
  | cons p participants ih =>
      rw [List.foldr_cons, ih, List.flatMap_cons, List.length_append]

theorem mem_nodes_iff : n ∈ g.nodes ↔ ∃ place, g.nodeAt? place = some n := by
  have hmem : n ∈ g.nodes ↔ some n ∈ g.nodes.map some := by simp
  rw [hmem, ← map_nodeAt?_places, List.mem_map]
  constructor
  · rintro ⟨place, -, hn⟩
    exact ⟨place, hn⟩
  · rintro ⟨place, hn⟩
    exact ⟨place, mem_places_iff.mpr ⟨n, hn⟩, hn⟩

/-! ## The node of a name -/

/-- The node at the place has the name, and no node at an earlier place has it. -/
structure IsFirstNode (g : Graph) (name : NodeName) (place : Place) (n : Node) : Prop where
  node_eq : g.nodeAt? place = some n
  name_eq : n.toNodeName = name
  name_ne : ∀ earlier m, earlier.Precedes place → g.nodeAt? earlier = some m →
    m.toNodeName ≠ name

theorem IsFirstNode.unique {other : Place} {m : Node} (hn : g.IsFirstNode name place n)
    (hm : g.IsFirstNode name other m) : place = other ∧ n = m := by
  rcases place.precedes_or_eq_or_precedes other with hlt | rfl | hlt
  · exact absurd hn.name_eq (hm.name_ne place n hlt hn.node_eq)
  · exact ⟨rfl, Option.some.inj (hn.node_eq.symm.trans hm.node_eq)⟩
  · exact absurd hm.name_eq (hn.name_ne other m hlt hm.node_eq)

theorem exists_isFirstNode_of_node? (h : g.node? name = some n) :
    ∃ place, g.IsFirstNode name place n := by
  obtain ⟨hname, before, after, hnodes, hbefore⟩ := List.find?_eq_some_iff_append.mp h
  have hplaces := g.map_nodeAt?_places
  rw [hnodes, List.map_append, List.map_cons] at hplaces
  obtain ⟨earlier, rest, hsplit, hearlier, hrest⟩ := List.map_eq_append_iff.mp hplaces
  obtain ⟨place, later, rfl, hnode, -⟩ := List.map_eq_cons_iff.mp hrest
  refine ⟨place, hnode, of_decide_eq_true hname, ?_⟩
  intro other m hother hm
  have hmem : other ∈ earlier ++ place :: later := by
    rw [← hsplit]
    exact mem_places_iff.mpr ⟨m, hm⟩
  -- The places in front of the node are those of the nodes in front of it.
  have hfront : other ∈ earlier := by
    have hordered := g.pairwise_places
    rw [hsplit] at hordered
    have hafter := (List.pairwise_cons.mp (List.pairwise_append.mp hordered).2.1).1
    rcases List.mem_append.mp hmem with hfront | hback
    · exact hfront
    · rcases List.mem_cons.mp hback with rfl | hlater
      · exact absurd hother other.not_precedes_self
      · exact absurd hother (hafter other hlater).asymm
  have hbefore' : some m ∈ before.map some := by
    rw [← hearlier, ← hm]
    exact List.mem_map_of_mem hfront
  have hne := hbefore m (by simpa using hbefore')
  simpa using hne

theorem node?_eq_none_iff : g.node? name = none ↔ ∀ n ∈ g.nodes, n.toNodeName ≠ name := by
  simp [node?, List.find?_eq_none]

/-- The search for a name finds the first node of that name. -/
theorem node?_eq_some_iff : g.node? name = some n ↔ ∃ place, g.IsFirstNode name place n := by
  refine ⟨exists_isFirstNode_of_node?, ?_⟩
  rintro ⟨place, hfirst⟩
  cases hfound : g.node? name with
  | none =>
      have hmem : n ∈ g.nodes := mem_nodes_iff.mpr ⟨place, hfirst.node_eq⟩
      exact absurd hfirst.name_eq (node?_eq_none_iff.mp hfound n hmem)
  | some m =>
      obtain ⟨other, hother⟩ := exists_isFirstNode_of_node? hfound
      rw [(hfirst.unique hother).2]

/-! ## The listing -/

theorem getElem?_of_map_places {α : Type} {f : Place → Option α} {entries : List α} {i : Nat}
    (h : g.places.map f = entries.map some) (hplace : g.places[i]? = some place) :
    entries[i]? = f place := by
  have hentry : (g.places.map f)[i]? = some (f place) := by
    rw [List.getElem?_map, hplace, Option.map_some]
  rw [h, List.getElem?_map, Option.map_eq_some_iff] at hentry
  obtain ⟨x, hx, hfx⟩ := hentry
  rw [hx, hfx]

/-- A node that is added stands behind the nodes of its participant, and no other node
moves. -/
theorem nodeAt?_after_add {gid : Gid} {p : Participant} (hp : g.participants[gid]? = some p)
    (name : NodeName) (place : Place) :
    (g.after (.changeNode gid name .add)).nodeAt? place =
      if place = ⟨gid, p.nodes.length⟩ then some (.ofName name) else g.nodeAt? place := by
  obtain ⟨participant, index⟩ := place
  simp only [nodeAt?, getElem?_participants_after, Operation.onParticipant, Place.mk.injEq,
    eq_comm (a := gid)]
  by_cases hgid : participant = gid
  · rw [hgid, hp]
    simp only [if_true, true_and, Option.map_some, Option.bind_some, NodeAction.apply,
      Option.getD_some]
    rcases Nat.lt_trichotomy index p.nodes.length with hlt | rfl | hlt
    · rw [List.getElem?_append_left hlt, if_neg (Nat.ne_of_lt hlt)]
    · rw [List.getElem?_concat_length, if_pos rfl]
    · rw [if_neg (Nat.ne_of_gt hlt), List.getElem?_eq_none (Nat.le_of_lt hlt)]
      exact List.getElem?_eq_none (by simp; omega)
  · simp [hgid]

/-- The name is that of some node exactly if some position of the listing has it. -/
theorem exists_toNodeName_eq_iff (g : Graph) (enclaves : Bool) (name : NodeName) :
    (∃ n ∈ g.nodes, n.toNodeName = name) ↔
      ∃ i : Nat, (g.nodeListing enclaves).names[i]? = some name.name ∧
        (g.nodeListing enclaves).namespaces[i]? = some name.ns := by
  simp only [nodeListing, List.getElem?_map, Option.map_eq_some_iff]
  constructor
  · rintro ⟨n, hn, rfl⟩
    obtain ⟨i, hi⟩ := List.mem_iff_getElem?.mp hn
    exact ⟨i, ⟨n, hi, rfl⟩, n, hi, rfl⟩
  · rintro ⟨i, ⟨n, hn, hname⟩, m, hm, hns⟩
    obtain rfl : n = m := Option.some.inj (hn.symm.trans hm)
    exact ⟨n, List.mem_of_getElem? hn, congrArg₂ NodeName.mk hname hns⟩

theorem topicsOf_eq_error_iff {kind : EndpointKind} {d : Demangler} {e : Error} :
    g.topicsOf kind name d = .error e ↔
      e = .nodeNameNonExistent name ∧ ∀ n ∈ g.nodes, n.toNodeName ≠ name := by
  rw [← node?_eq_none_iff, topicsOf]
  cases g.node? name with
  | none => simp [eq_comm]
  | some n => simp

/-- All questions about nodes follow the places.  The listing has one position for each
place, in order, with the node that is there and the enclave of its own participant, and
the lists are as long as there are nodes.  Leaving the enclaves out changes nothing else.
A node that is added gets the place behind those of its participant.  A question about
the topics of a node fails exactly if no position has the name. -/
theorem nodeListing_follows_places (g : Graph) :
    let listing := g.nodeListing true
    g.nodeListing false = { listing with enclaves := none } ∧
      listing.names.length = g.nodeCount ∧ listing.namespaces.length = g.nodeCount ∧
      listing.enclaves.map List.length = some g.nodeCount ∧ g.places.length = g.nodeCount ∧
      g.places.Pairwise Place.Precedes ∧
      (∀ place, place ∈ g.places ↔ ∃ n, g.nodeAt? place = some n) ∧
      (∀ (i : Nat) place, g.places[i]? = some place →
        ∃ p n, g.participants[place.participant]? = some p ∧
          p.nodes[place.index]? = some n ∧ listing.Shows i n p.enclave) ∧
      (∀ (gid : Gid) p name, g.participants[gid]? = some p → ∀ place,
        (g.after (.changeNode gid name .add)).nodeAt? place =
          if place = ⟨gid, p.nodes.length⟩ then some (.ofName name) else g.nodeAt? place) ∧
      ∀ kind name d,
        (g.topicsOf kind name d = .error (.nodeNameNonExistent name) ↔
          ∀ i : Nat, ¬ (listing.names[i]? = some name.name ∧
            listing.namespaces[i]? = some name.ns)) ∧
        ∀ e, g.topicsOf kind name d = .error e → e = .nodeNameNonExistent name := by
  intro listing
  have henclaves := g.map_enclaveAt?_places
  have hcount : g.places.length = g.nodeCount := by
    rw [length_places, nodeCount_eq_length]
  refine ⟨rfl, ?_, ?_, ?_, hcount, g.pairwise_places, fun place => mem_places_iff, ?_, ?_, ?_⟩
  · rw [nodeCount_eq_length]
    exact List.length_map _
  · rw [nodeCount_eq_length]
    exact List.length_map _
  · have hlength := congrArg List.length henclaves
    rw [List.length_map, List.length_map, hcount] at hlength
    exact congrArg some hlength.symm
  · intro i place hplace
    obtain ⟨n, hn⟩ := mem_places_iff.mp (List.mem_of_getElem? hplace)
    obtain ⟨p, hp, hnode⟩ := nodeAt?_eq_some_iff.mp hn
    have hrow : g.nodes[i]? = some n :=
      (getElem?_of_map_places g.map_nodeAt?_places hplace).trans hn
    have henclave := getElem?_of_map_places henclaves hplace
    rw [enclaveAt?, hp, Option.map_some] at henclave
    refine ⟨p, n, hp, hnode, ?_, ?_, _, rfl, henclave⟩
    · exact List.getElem?_map.trans (congrArg (Option.map (·.name)) hrow)
    · exact List.getElem?_map.trans (congrArg (Option.map (·.ns)) hrow)
  · intro gid p name hp place
    exact nodeAt?_after_add hp name place
  · intro kind name d
    refine ⟨?_, fun e he => (topicsOf_eq_error_iff.mp he).1⟩
    rw [topicsOf_eq_error_iff, ← not_exists, ← exists_toNodeName_eq_iff]
    simp

/-- Nodes of one name with different participants, and a participant without nodes.  The
first talker lists writers of other participants, and one that is not known. -/
def crossedGraph : Graph :=
  let operations : List Operation :=
    [.addEntity .publisher (.padded [11]) ⟨"rt/chatter", "String", .unset, .padded [1], .standard⟩,
      .addEntity .publisher (.padded [12]) ⟨"rt/chatter", "Bool", .unset, .padded [2], .standard⟩,
      .addEntity .publisher (.padded [13]) ⟨"rt/chatter", "Char", .unset, .padded [4], .standard⟩,
      .addEntity .publisher (.padded [14]) ⟨"rq/chatter", "Byte", .unset, .padded [3], .standard⟩,
      .update ⟨.padded [3], [⟨⟨"talker", "/"⟩, [], [.padded [13]]⟩]⟩,
      .addParticipant (.padded [3]) "/c",
      .addParticipant (.padded [2]) "/b",
      .update ⟨.padded [1],
        [⟨⟨"logger", "/"⟩, [.padded [11]], []⟩,
          ⟨⟨"talker", "/"⟩, [], [.padded [11], .padded [12], .padded [15], .padded [14]]⟩]⟩]
  operations.foldl after empty

theorem places_crossedGraph :
    crossedGraph.places = [⟨.padded [1], 0⟩, ⟨.padded [1], 1⟩, ⟨.padded [3], 0⟩] := by
  decide +kernel

theorem nodeListing_crossedGraph :
    crossedGraph.nodeCount = 3 ∧
      (∃ n, n.toNodeName = ⟨"talker", "/"⟩ ∧ (crossedGraph.nodeListing true).Shows 2 n "/c") ∧
      ∀ kind d, crossedGraph.topicsOf kind ⟨"listener", "/"⟩ d =
        .error (.nodeNameNonExistent ⟨"listener", "/"⟩) := by
  obtain ⟨-, -, -, -, hplaces, -, -, hshows, -, htopics⟩ := nodeListing_follows_places crossedGraph
  refine ⟨?_, ?_, ?_⟩
  · rw [← hplaces, places_crossedGraph]
    rfl
  · have hplace : crossedGraph.places[2]? = some ⟨.padded [3], 0⟩ := by
      rw [places_crossedGraph]
      rfl
    have hcrossed : crossedGraph.participants[Gid.padded [3]]? =
        some ⟨"/c", [⟨⟨"talker", "/"⟩, [], [.padded [13]]⟩]⟩ := by decide +kernel
    obtain ⟨p, n, hp, hn, hshow⟩ := hshows 2 _ hplace
    obtain rfl := Option.some.inj (hp.symm.trans hcrossed)
    obtain rfl := Option.some.inj hn
    exact ⟨_, rfl, hshow⟩
  · intro kind d
    have hnames : (crossedGraph.nodeListing true).names = ["logger", "talker", "talker"] := by
      decide +kernel
    refine (htopics kind _ d).1.mpr fun i hi => ?_
    have hmem : "listener" ∈ (crossedGraph.nodeListing true).names := List.mem_of_getElem? hi.1
    rw [hnames] at hmem
    contradiction

end Graph

end DiscoveryGraph
