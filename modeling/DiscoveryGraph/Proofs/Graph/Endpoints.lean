import DiscoveryGraph.Proofs.Graph.Places

/-!
# The endpoints on a topic

The listing of a topic has one entry for each entity of the kind whose topic is exactly
that one, and no other entry.  Beside what the entity says of itself an entry names an
owner.  The owner follows from what the participant that the entity names associates with
its nodes, by the kind of the entity; nothing else in the graph has a say in it.
-/

namespace DiscoveryGraph

namespace Graph

/-- `IsOwner g participant kind gid name` says that an endpoint that names this participant
is listed under `name`. -/
inductive IsOwner (g : Graph) (participant : Gid) (kind : EndpointKind) (gid : Gid) :
    NodeName → Prop
  /-- The first node of the participant that the endpoint is associated with. -/
  | node {p : Participant} {before after : List Node} {n : Node}
      (hp : g.participants[participant]? = some p) (hnodes : p.nodes = before ++ n :: after)
      (hn : gid ∈ n.endpoints kind) (hbefore : ∀ m ∈ before, gid ∉ m.endpoints kind) :
      IsOwner g participant kind gid n.toNodeName
  | unknown {p : Participant} (hp : g.participants[participant]? = some p)
      (hnodes : ∀ n ∈ p.nodes, gid ∉ n.endpoints kind) :
      IsOwner g participant kind gid .unknownOwner
  | bare (hp : g.participants[participant]? = none) :
      IsOwner g participant kind gid .bareParticipant

/-- The nodes of a participant by name, each with the endpoints of one kind that are
associated with it. -/
def associations (g : Graph) (kind : EndpointKind) (participant : Gid) :
    Option (List (NodeName × List Gid)) :=
  g.participants[participant]?.map fun p =>
    p.nodes.map fun n => (n.toNodeName, n.endpoints kind)

/-- The entry describes the entity, with the owner that the graph gives to it. -/
structure Describes (g : Graph) (kind : EndpointKind) (demangleType : String → String)
    (e : Entity) (info : EndpointInfo) : Prop where
  kind_eq : info.kind = kind
  topicType_eq : info.topicType = demangleType e.topicType
  typeHash_eq : info.typeHash = e.typeHash
  qos_eq : info.qos = e.qos
  owner : g.IsOwner e.participant kind info.gid info.node

variable {g h : Graph} {kind : EndpointKind} {participant gid : Gid} {topic : String}
  {demangleType : String → String} {e : Entity} {info : EndpointInfo} {name : NodeName}

/-! ## Owners -/

theorem owner_of_isOwner (h : g.IsOwner participant kind gid name) :
    g.owner participant kind gid = name := by
  cases h with
  | @node p before after n hp hnodes hn hbefore =>
      have hfound : ownerAmong? p.nodes kind gid = some n := by
        refine List.find?_eq_some_iff_append.mpr ⟨by simpa using hn, before, after, hnodes, ?_⟩
        intro m hm
        simpa using hbefore m hm
      simp only [owner, hp, hfound]
  | @unknown p hp hnodes =>
      have hnone : ownerAmong? p.nodes kind gid = none := by
        refine List.find?_eq_none.mpr fun n hn => ?_
        simpa using hnodes n hn
      simp only [owner, hp, hnone]
  | bare hp => simp only [owner, hp]

theorem exists_isOwner (g : Graph) (participant : Gid) (kind : EndpointKind) (gid : Gid) :
    ∃ name, g.IsOwner participant kind gid name := by
  cases hp : g.participants[participant]? with
  | none => exact ⟨_, .bare hp⟩
  | some p =>
      by_cases hlisted : ∃ n ∈ p.nodes, gid ∈ n.endpoints kind
      · have hsome : (ownerAmong? p.nodes kind gid).isSome = true := by
          simpa [ownerAmong?] using hlisted
        obtain ⟨n, hn⟩ := Option.isSome_iff_exists.mp hsome
        obtain ⟨hgid, before, after, hnodes, hbefore⟩ := List.find?_eq_some_iff_append.mp hn
        exact ⟨_, .node hp hnodes (by simpa using hgid) fun m hm => by simpa using hbefore m hm⟩
      · exact ⟨_, .unknown hp fun n hn hgid => hlisted ⟨n, hn, hgid⟩⟩

/-- Every endpoint has exactly one owner, and the search finds it. -/
theorem isOwner_iff :
    g.IsOwner participant kind gid name ↔ name = g.owner participant kind gid := by
  constructor
  · intro h
    exact (owner_of_isOwner h).symm
  · rintro rfl
    obtain ⟨name, hname⟩ := g.exists_isOwner participant kind gid
    rw [owner_of_isOwner hname]
    exact hname

/-- The owner follows from the associations of one participant and one kind. -/
theorem owner_congr
    (hassociations : g.associations kind participant = h.associations kind participant) :
    g.owner participant kind gid = h.owner participant kind gid := by
  have howner (g : Graph) : g.owner participant kind gid =
      match g.associations kind participant with
      | none => .bareParticipant
      | some rows => ((rows.find? (·.2.contains gid)).map (·.1)).getD .unknownOwner := by
    rw [owner, associations]
    cases g.participants[participant]? with
    | none => rfl
    | some p =>
        have hfind : (p.nodes.map fun n => (n.toNodeName, n.endpoints kind)).find?
            (·.2.contains gid) =
              (ownerAmong? p.nodes kind gid).map fun n => (n.toNodeName, n.endpoints kind) :=
          List.find?_map
        simp only [Option.map_some, hfind]
        cases ownerAmong? p.nodes kind gid <;> rfl
  rw [howner, howner, hassociations]

/-! ## Entries -/

/-- An entity has only one description under a gid. -/
theorem describes_iff :
    g.Describes kind demangleType e info ↔
      info = ⟨g.owner e.participant kind info.gid, demangleType e.topicType, e.typeHash, kind,
        info.gid, e.qos⟩ := by
  constructor
  · intro hinfo
    rw [← isOwner_iff.mp hinfo.owner, ← hinfo.topicType_eq, ← hinfo.typeHash_eq, ← hinfo.qos_eq,
      ← hinfo.kind_eq]
  · intro hinfo
    rw [hinfo]
    exact ⟨rfl, rfl, rfl, rfl, isOwner_iff.mpr rfl⟩

theorem describes_congr
    (hassociations : h.associations kind e.participant = g.associations kind e.participant) :
    h.Describes kind demangleType e info ↔ g.Describes kind demangleType e info := by
  rw [describes_iff, describes_iff, owner_congr hassociations]

/-! ## The listing -/

theorem mem_endpointsOn_iff :
    info ∈ g.endpointsOn kind topic demangleType ↔
      ∃ e, (g.entities kind)[info.gid]? = some e ∧ e.topic = topic ∧
        g.Describes kind demangleType e info := by
  simp only [endpointsOn, List.mem_map, List.mem_filter, decide_eq_true_eq, Prod.exists,
    Std.ExtTreeMap.mem_toList_iff_getElem?_eq_some]
  constructor
  · rintro ⟨gid, e, ⟨hentity, htopic⟩, rfl⟩
    exact ⟨e, hentity, htopic, describes_iff.mpr rfl⟩
  · rintro ⟨e, hentity, htopic, hinfo⟩
    exact ⟨info.gid, e, ⟨hentity, htopic⟩, (describes_iff.mp hinfo).symm⟩

theorem existsUnique_mem_endpointsOn (hentity : (g.entities kind)[gid]? = some e)
    (htopic : e.topic = topic) :
    ∃! info, info ∈ g.endpointsOn kind topic demangleType ∧ info.gid = gid := by
  refine ⟨⟨g.owner e.participant kind gid, demangleType e.topicType, e.typeHash, kind, gid,
    e.qos⟩, ⟨mem_endpointsOn_iff.mpr ⟨e, hentity, htopic, describes_iff.mpr rfl⟩, rfl⟩, ?_⟩
  rintro info ⟨hinfo, rfl⟩
  obtain ⟨other, hother, -, hdescribes⟩ := mem_endpointsOn_iff.mp hinfo
  obtain rfl : e = other := Option.some.inj (hentity.symm.trans hother)
  exact describes_iff.mp hdescribes

theorem pairwise_endpointsOn (g : Graph) (kind : EndpointKind) (topic : String)
    (demangleType : String → String) :
    (g.endpointsOn kind topic demangleType).Pairwise fun a b => compare a.gid b.gid = .lt := by
  rw [endpointsOn, List.pairwise_map]
  exact Std.ExtTreeMap.ordered_keys_toList.filter _

theorem length_endpointsOn (g : Graph) (kind : EndpointKind) (topic : String)
    (demangleType : String → String) :
    (g.endpointsOn kind topic demangleType).length = g.countOn kind topic := by
  rw [endpointsOn, countOn, List.length_map, values_eq_map_toList, List.countP_map,
    List.countP_eq_length_filter]
  rfl

/-- The listing of a topic is complete, sorted and says whose the endpoints are: it has
exactly one entry for each entity of the kind on the topic, in strictly ascending order of
the gids, as many as are counted, and each entry describes its entity and names the owner.
Any graph with the same entity, and with the same associations of the same kind at the
participant that the entity names, has the same entry. -/
theorem endpointsOn_describes_entities (g : Graph) (kind : EndpointKind) (topic : String)
    (demangleType : String → String) :
    let listing := g.endpointsOn kind topic demangleType
    listing.Pairwise (fun a b => compare a.gid b.gid = .lt) ∧
      listing.length = g.countOn kind topic ∧
      (∀ info, info ∈ listing ↔ ∃ e, (g.entities kind)[info.gid]? = some e ∧
        e.topic = topic ∧ g.Describes kind demangleType e info) ∧
      (∀ (gid : Gid) e, (g.entities kind)[gid]? = some e → e.topic = topic →
        ∃! info, info ∈ listing ∧ info.gid = gid) ∧
      ∀ (h : Graph) (gid : Gid), (h.entities kind)[gid]? = (g.entities kind)[gid]? →
        (∀ e, (g.entities kind)[gid]? = some e →
          h.associations kind e.participant = g.associations kind e.participant) →
        ∀ info, info.gid = gid →
          (info ∈ h.endpointsOn kind topic demangleType ↔ info ∈ listing) := by
  intro listing
  refine ⟨g.pairwise_endpointsOn kind topic demangleType,
    g.length_endpointsOn kind topic demangleType, fun info => mem_endpointsOn_iff, ?_, ?_⟩
  · intro gid e hentity htopic
    exact existsUnique_mem_endpointsOn hentity htopic
  · intro h gid hentity hassociations info hgid
    rw [mem_endpointsOn_iff, mem_endpointsOn_iff, hgid, hentity]
    refine exists_congr fun e => and_congr_right fun he => and_congr_right fun _ => ?_
    exact describes_congr (hassociations e he)

/-- The writers of one topic have three kinds of owners, and none of them is a node of
another participant. -/
theorem endpointsOn_crossedGraph :
    let listing := crossedGraph.endpointsOn .publisher "rt/chatter" id
    listing.length = 3 ∧
      ⟨⟨"talker", "/"⟩, "String", .unset, .publisher, .padded [11], .standard⟩ ∈ listing ∧
      ⟨.unknownOwner, "Bool", .unset, .publisher, .padded [12], .standard⟩ ∈ listing ∧
      ⟨.bareParticipant, "Char", .unset, .publisher, .padded [13], .standard⟩ ∈ listing := by
  obtain ⟨-, hlength, hmem, -⟩ :=
    endpointsOn_describes_entities crossedGraph .publisher "rt/chatter" id
  have howner : crossedGraph.participants[Gid.padded [1]]? = some ⟨"",
      [⟨⟨"logger", "/"⟩, [.padded [11]], []⟩,
        ⟨⟨"talker", "/"⟩, [], [.padded [11], .padded [12], .padded [15], .padded [14]]⟩]⟩ := by
    decide +kernel
  refine ⟨?_, ?_, ?_, ?_⟩
  · rw [hlength]
    decide +kernel
  · refine (hmem _).mpr ⟨⟨"rt/chatter", "String", .unset, .padded [1], .standard⟩,
      by decide +kernel, rfl, rfl, rfl, rfl, rfl, ?_⟩
    exact .node howner (rfl : _ = [_] ++ _ :: []) (by decide) (by decide)
  · refine (hmem _).mpr ⟨⟨"rt/chatter", "Bool", .unset, .padded [2], .standard⟩,
      by decide +kernel, rfl, rfl, rfl, rfl, rfl, ?_⟩
    exact .unknown (p := ⟨"/b", []⟩) (by decide +kernel) (by decide)
  · refine (hmem _).mpr ⟨⟨"rt/chatter", "Char", .unset, .padded [4], .standard⟩,
      by decide +kernel, rfl, rfl, rfl, rfl, rfl, ?_⟩
    exact .bare (by decide +kernel)

end Graph

end DiscoveryGraph
