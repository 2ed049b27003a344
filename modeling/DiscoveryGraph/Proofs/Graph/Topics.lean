import DiscoveryGraph.Proofs.Graph.Places

/-!
# Topics and their types

The answer to a question about topics is put together entity by entity.  In the end it has
each topic of an entity, under the name for users and unless that name is empty, and with
it all types of the entities on that topic.  Topics that differ on the wire may have the
same name, and then their types are found together.

The question about a node is answered from the entities that the node is associated with,
so the answer is part of that for the whole graph.
-/

namespace DiscoveryGraph

namespace TopicTypes

/-- The answer has the topics and types of the entities with a property: a topic is there
with a set of types exactly if its name is not empty, some of the entities are on it, and
the types are those of these entities. -/
def Collects (topics : TopicTypes) (d : Demangler) (among : Entity → Prop) : Prop :=
  ∀ topic types, topics[topic]? = some types ↔
    topic ≠ "" ∧ (∃ e, among e ∧ d.topic e.topic = topic) ∧
      ∀ topicType, topicType ∈ types ↔
        ∃ e, among e ∧ d.topic e.topic = topic ∧ d.topicType e.topicType = topicType

/-- Every topic of the answer is in the other one, with all its types and maybe more. -/
def IsPartOf (topics others : TopicTypes) : Prop :=
  ∀ (topic : String) types, topics[topic]? = some types →
    ∃ larger, others[topic]? = some larger ∧ ∀ topicType ∈ types, topicType ∈ larger

/-- The types of a topic, none if the topic is not there. -/
def types (topics : TopicTypes) (topic : String) : Std.ExtTreeSet String :=
  topics[topic]?.getD ∅

variable {d : Demangler} {topics : TopicTypes} {entities others : List Entity} {e : Entity}
  {topic topicType : String}

theorem enter_of_empty (h : d.topic e.topic = "") : enter d topics e = topics := by
  simp [enter, h]

theorem enter_of_ne_empty (h : d.topic e.topic ≠ "") :
    enter d topics e = topics.insert (d.topic e.topic)
      ((topics.types (d.topic e.topic)).insert (d.topicType e.topicType)) := by
  simp [enter, h, types]

theorem mem_enter_iff :
    topic ∈ enter d topics e ↔ (topic ≠ "" ∧ d.topic e.topic = topic) ∨ topic ∈ topics := by
  by_cases hempty : d.topic e.topic = ""
  · rw [enter_of_empty hempty, hempty]
    refine ⟨.inr, ?_⟩
    rintro (⟨hne, heq⟩ | hmem)
    · exact absurd heq.symm hne
    · exact hmem
  · rw [enter_of_ne_empty hempty, Std.ExtTreeMap.mem_insert, Std.compare_eq_iff_eq]
    refine or_congr_left ⟨?_, And.right⟩
    rintro rfl
    exact ⟨hempty, rfl⟩

theorem mem_types_enter_iff :
    topicType ∈ (enter d topics e).types topic ↔
      (topic ≠ "" ∧ d.topic e.topic = topic ∧ d.topicType e.topicType = topicType) ∨
        topicType ∈ topics.types topic := by
  by_cases hempty : d.topic e.topic = ""
  · rw [enter_of_empty hempty, hempty]
    refine ⟨.inr, ?_⟩
    rintro (⟨hne, heq, -⟩ | hmem)
    · exact absurd heq.symm hne
    · exact hmem
  · rw [enter_of_ne_empty hempty, types, Std.ExtTreeMap.getElem?_insert]
    simp only [Std.compare_eq_iff_eq]
    by_cases htopic : d.topic e.topic = topic
    · rw [if_pos htopic, Option.getD_some, Std.ExtTreeSet.mem_insert, Std.compare_eq_iff_eq, htopic]
      refine or_congr_left ⟨fun htype => ⟨?_, rfl, htype⟩, fun h => h.2.2⟩
      rw [← htopic]
      exact hempty
    · rw [if_neg htopic]
      simp [htopic, types]

/-- What every entity adds by itself, all entities add together. -/
theorem foldl_enter_iff {P : TopicTypes → Prop} {Q : Entity → Prop}
    (hstep : ∀ topics e, P (enter d topics e) ↔ Q e ∨ P topics) :
    P (entities.foldl (enter d) topics) ↔ (∃ e ∈ entities, Q e) ∨ P topics := by
  induction entities generalizing topics with
  | nil => simp
  | cons first rest ih =>
      rw [List.foldl_cons, ih, hstep]
      simp only [List.mem_cons, exists_eq_or_imp, or_left_comm, or_assoc]

theorem mem_ofEntities_iff :
    topic ∈ ofEntities d entities ↔ topic ≠ "" ∧ ∃ e ∈ entities, d.topic e.topic = topic := by
  rw [ofEntities, foldl_enter_iff (P := (topic ∈ ·)) fun topics e => mem_enter_iff]
  simp [and_left_comm (b := ¬ topic = "")]

theorem mem_types_ofEntities_iff :
    topicType ∈ (ofEntities d entities).types topic ↔ topic ≠ "" ∧
      ∃ e ∈ entities, d.topic e.topic = topic ∧ d.topicType e.topicType = topicType := by
  rw [ofEntities, foldl_enter_iff (P := (topicType ∈ types · topic))
    fun topics e => mem_types_enter_iff]
  simp [types, and_left_comm (b := ¬ topic = "")]

theorem getElem?_eq_some_iff {set : Std.ExtTreeSet String} :
    topics[topic]? = some set ↔ topic ∈ topics ∧ topics.types topic = set := by
  rw [types]
  cases h : topics[topic]? with
  | none => simp [← Std.ExtTreeMap.isSome_getElem?_iff_mem, h]
  | some s => simp [← Std.ExtTreeMap.isSome_getElem?_iff_mem, h]

/-- The answer for a list of entities has the topics and types of just these entities. -/
theorem collects_ofEntities (d : Demangler) (entities : List Entity) :
    (ofEntities d entities).Collects d (· ∈ entities) := by
  intro topic set
  rw [getElem?_eq_some_iff, mem_ofEntities_iff, and_assoc]
  refine and_congr_right fun hne => and_congr_right fun _ => ?_
  constructor
  · rintro rfl topicType
    rw [mem_types_ofEntities_iff]
    exact and_iff_right hne
  · intro hset
    apply Std.ExtTreeSet.ext_mem
    intro topicType
    rw [hset, mem_types_ofEntities_iff]
    exact and_iff_right hne

/-- More entities give more topics, and more types of each. -/
theorem isPartOf_ofEntities (d : Demangler) (hsub : ∀ e ∈ entities, e ∈ others) :
    (ofEntities d entities).IsPartOf (ofEntities d others) := by
  intro topic set hset
  obtain ⟨hmem, rfl⟩ := getElem?_eq_some_iff.mp hset
  obtain ⟨hne, e, he, htopic⟩ := mem_ofEntities_iff.mp hmem
  have hmem' : topic ∈ ofEntities d others := mem_ofEntities_iff.mpr ⟨hne, e, hsub e he, htopic⟩
  refine ⟨_, getElem?_eq_some_iff.mpr ⟨hmem', rfl⟩, ?_⟩
  intro topicType htype
  obtain ⟨-, e, he, htype⟩ := mem_types_ofEntities_iff.mp htype
  exact mem_types_ofEntities_iff.mpr ⟨hne, e, hsub e he, htype⟩

end TopicTypes

namespace Graph

/-- The entity is one of the writers or readers of the graph. -/
def Knows (g : Graph) (e : Entity) : Prop :=
  ∃ (kind : EndpointKind) (gid : Gid), (g.entities kind)[gid]? = some e

/-- The entity is known under a gid that is associated with the node, whichever
participant the entity itself names. -/
def Associates (g : Graph) (kind : EndpointKind) (n : Node) (e : Entity) : Prop :=
  ∃ gid ∈ n.endpoints kind, (g.entities kind)[gid]? = some e

variable {g : Graph} {kind : EndpointKind} {n : Node} {e : Entity}

theorem Associates.knows (h : g.Associates kind n e) : g.Knows e := by
  obtain ⟨gid, -, he⟩ := h
  exact ⟨kind, gid, he⟩

theorem mem_values_append_iff : e ∈ g.readers.values ++ g.writers.values ↔ g.Knows e := by
  rw [List.mem_append, mem_values_iff, mem_values_iff]
  constructor
  · rintro (⟨gid, he⟩ | ⟨gid, he⟩)
    · exact ⟨.subscription, gid, he⟩
    · exact ⟨.publisher, gid, he⟩
  · rintro ⟨kind, gid, he⟩
    cases kind with
    | publisher => exact .inr ⟨gid, he⟩
    | subscription => exact .inl ⟨gid, he⟩

/-- The topics of a graph and their types are those of its writers and readers, and
nothing else.  The answer for a node is put together in the same way from those writers,
or those readers, that the first node of the name is associated with.  It has no topic and
no type that the answer for the whole graph does not have. -/
theorem topics_collect_entities (g : Graph) (d : Demangler) :
    (g.topics d).Collects d g.Knows ∧
      ∀ kind name place n, g.IsFirstNode name place n →
        ∃ topics, g.topicsOf kind name d = .ok topics ∧
          topics.Collects d (g.Associates kind n) ∧ topics.IsPartOf (g.topics d) := by
  have hknows : (· ∈ g.readers.values ++ g.writers.values) = g.Knows :=
    funext fun e => propext mem_values_append_iff
  constructor
  · rw [← hknows]
    exact TopicTypes.collects_ofEntities d _
  · intro kind name place n hfirst
    have hnode : g.node? name = some n := node?_eq_some_iff.mpr ⟨place, hfirst⟩
    let listed := (n.endpoints kind).filterMap fun gid => (g.entities kind)[gid]?
    have hlisted : (· ∈ listed) = g.Associates kind n :=
      funext fun e => propext List.mem_filterMap
    refine ⟨.ofEntities d listed, ?_, ?_, ?_⟩
    · rw [topicsOf, hnode]
    · rw [← hlisted]
      exact TopicTypes.collects_ofEntities d listed
    · refine TopicTypes.isPartOf_ofEntities d fun e he => ?_
      have hassociates : g.Associates kind n e := List.mem_filterMap.mp he
      exact mem_values_append_iff.mpr hassociates.knows

/-- The first talker has writers of two participants, whose topics get one name here, and
not the writer of the second talker. -/
theorem topicsOf_crossedGraph :
    let d : Demangler := ⟨fun _ => "chatter", id⟩
    let talker : Node := ⟨⟨"talker", "/"⟩, [],
      [.padded [11], .padded [12], .padded [15], .padded [14]]⟩
    let foreign : Entity := ⟨"rq/chatter", "Byte", .unset, .padded [3], .standard⟩
    let other : Entity := ⟨"rt/chatter", "Char", .unset, .padded [4], .standard⟩
    crossedGraph.Associates .publisher talker foreign ∧
      ¬ crossedGraph.Associates .publisher talker other ∧ crossedGraph.Knows other ∧
      (crossedGraph.topics d).Collects d crossedGraph.Knows ∧
      ∃ topics, crossedGraph.topicsOf .publisher talker.toNodeName d = .ok topics ∧
        topics.Collects d (crossedGraph.Associates .publisher talker) ∧
        topics.IsPartOf (crossedGraph.topics d) := by
  intro d talker foreign other
  obtain ⟨hall, hnode⟩ := topics_collect_entities crossedGraph d
  have hfound : crossedGraph.node? talker.toNodeName = some talker := by decide +kernel
  obtain ⟨place, hfirst⟩ := node?_eq_some_iff.mp hfound
  have hforeign : crossedGraph.Associates .publisher talker foreign :=
    ⟨.padded [14], by decide, by decide +kernel⟩
  have hother : ∀ gid ∈ talker.endpoints .publisher,
      (crossedGraph.entities .publisher)[gid]? ≠ some other := by
    decide +kernel
  refine ⟨hforeign, ?_, ?_, hall, hnode .publisher _ place talker hfirst⟩
  · rintro ⟨gid, hgid, heq⟩
    exact hother gid hgid heq
  · exact ⟨.publisher, .padded [13], by decide +kernel⟩

end Graph

end DiscoveryGraph
