import DiscoveryGraph.Graph.Resolution
import DiscoveryGraph.Proofs.Graph.Endpoints
import DiscoveryGraph.Proofs.Qos.Basic
import DiscoveryGraph.Proofs.Qos.Extremes

/-!
# Resolved publishers and the subscriptions of a graph

A publisher that leaves every policy open offers the strongest reliability and
durability, as much liveliness as any subscription requests, and for each
duration the shortest one that is specified.  So it serves every subscription
that it was resolved from.  On a topic of a graph these are all that the graph
knows there, because the listing of endpoints leaves none out.
-/

namespace DiscoveryGraph

/-! ## Conflicts with the shortest specified duration -/

namespace Choice

variable {d : Duration} {ds : List Duration}

theorem notOffered_shortest (hd : d ∈ ds) : Conflict.notOffered (shortest ds) d = false := by
  by_cases hspecified : d = .unspecified
  · simp [Conflict.notOffered, hspecified]
  · have hne := shortest_ne_unspecified (mem_specified_iff.mpr ⟨hd, hspecified⟩)
    simp [Conflict.notOffered, hne]

theorem tooLong_shortest (hd : d ∈ ds) : Conflict.tooLong (shortest ds) d = false := by
  by_cases hspecified : d = .unspecified
  · simp [Conflict.tooLong, hspecified]
  · have hle := shortest_le (mem_specified_iff.mpr ⟨hd, hspecified⟩)
    simp [Conflict.tooLong, hle]

end Choice

/-! ## Filling in a publisher -/

namespace Profile

variable {q : Profile} {requests : List Profile} {request : Profile}

/-- Nothing that a subscription requests is beyond the publisher that was filled
in for it and for others. -/
theorem LeavesAllOpen.arises_fill_forPublisher (hq : q.LeavesAllOpen)
    (hrequest : request ∈ requests) (c : Conflict) :
    c.arises (q.fill (.forPublisher requests)) request = false := by
  have hdeadline : request.deadline ∈ requests.map (·.deadline) := List.mem_map_of_mem hrequest
  have hlease : request.lease ∈ requests.map (·.lease) := List.mem_map_of_mem hrequest
  rw [hq.fill_eq]
  cases c with
  | bestEffortForReliable => simp [Conflict.arises, Choice.forPublisher]
  | volatileForTransientLocal => simp [Conflict.arises, Choice.forPublisher]
  | deadlineNotOffered => exact Choice.notOffered_shortest hdeadline
  | deadlineTooLong => exact Choice.tooLong_shortest hdeadline
  | leaseNotOffered => exact Choice.notOffered_shortest hlease
  | leaseTooLong => exact Choice.tooLong_shortest hlease
  | automaticForManual =>
      by_cases hmanual : request.liveliness = .manualByTopic
      · have hany : requests.any (·.liveliness = .manualByTopic) = true :=
          List.any_eq_true.mpr ⟨request, hrequest, by simpa using hmanual⟩
        simp only [Conflict.arises, Choice.forPublisher, hany, if_true]
        rfl
      · simp [Conflict.arises, hmanual]

theorem LeavesAllOpen.verdict_resolve_publisher_ne_error (hq : q.LeavesAllOpen)
    {peers : List EndpointInfo} (hrequest : request ∈ peers.map (·.qos)) :
    verdict (q.resolve .publisher peers) request ≠ .error := by
  rw [verdict_ne_error_iff]
  exact hq.arises_fill_forPublisher hrequest

end Profile

/-! ## The subscriptions on a topic -/

namespace Graph

variable {g : Graph} {kind : EndpointKind} {topic : String} {demangleType : String → String}

/-- The listing of the endpoints on a topic has the settings of each entity on
that topic, and no others. -/
theorem mem_map_qos_endpointsOn_iff {q : Profile} :
    q ∈ (g.endpointsOn kind topic demangleType).map (·.qos) ↔
      ∃ (gid : Gid) (e : Entity),
        (g.entities kind)[gid]? = some e ∧ e.topic = topic ∧ e.qos = q := by
  rw [List.mem_map]
  constructor
  · rintro ⟨info, hinfo, rfl⟩
    obtain ⟨e, hentry, htopic, hdescribes⟩ := mem_endpointsOn_iff.mp hinfo
    exact ⟨info.gid, e, hentry, htopic, hdescribes.qos_eq.symm⟩
  · rintro ⟨gid, e, hentry, htopic, rfl⟩
    obtain ⟨info, ⟨hinfo, rfl⟩, -⟩ := existsUnique_mem_endpointsOn hentry htopic
    obtain ⟨other, hother, -, hdescribes⟩ := mem_endpointsOn_iff.mp hinfo
    obtain rfl : e = other := Option.some.inj (hentry.symm.trans hother)
    exact ⟨info, hinfo, hdescribes.qos_eq⟩

/-- A publisher that leaves all open and asks a graph for its peers on a topic is
resolved, and then it serves every reader that the graph has on that topic. -/
theorem resolveOnTopic_publisher_serves {q : Profile} (hq : q.LeavesAllOpen) (g : Graph)
    (topic : String) (demangleType : String → String) :
    let fetch (g : Graph) (topic : String) (kind : EndpointKind) :
        Id (Except Error (List EndpointInfo)) :=
      pure (.ok (g.endpointsOn kind topic demangleType))
    let outcome := (q.resolveOnTopic .publisher fetch g topic).run
    outcome.1 = .ok () ∧
      ∀ (gid : Gid) (reader : Entity), g.readers[gid]? = some reader → reader.topic = topic →
        (checkCompatible outcome.2 reader.qos).verdict ≠ .error := by
  intro fetch outcome
  have hfetch : fetch g topic EndpointKind.publisher.opposite =
      pure (.ok (g.endpointsOn .subscription topic demangleType)) :=
    rfl
  have houtcome : outcome =
      (.ok (), q.resolve .publisher (g.endpointsOn .subscription topic demangleType)) :=
    hq.resolveOnTopic_eq hfetch
  rw [houtcome]
  refine ⟨rfl, ?_⟩
  intro gid reader hreader htopic
  have hrequest : reader.qos ∈
      (g.endpointsOn .subscription topic demangleType).map (·.qos) :=
    mem_map_qos_endpointsOn_iff.mpr ⟨gid, reader, hreader, htopic, rfl⟩
  exact hq.verdict_resolve_publisher_ne_error hrequest

/-- A reader on the topic `chatter` with these settings. -/
def chatterReader (qos : Profile) : Entity where
  topic := "chatter"
  topicType := "String"
  typeHash := .unset
  participant := .padded [1]
  qos := qos

/-- The settings of a reader that requests liveliness by topic, and a deadline
longer than `Duration.infinite`. -/
def patientRequest : Profile :=
  { Profile.standard with
    liveliness := .manualByTopic
    deadline := ⟨18446744073709551615, 0⟩
    lease := .ofSeconds 2 }

def patientAndStandardReaders : Graph :=
  { Graph.empty with
    readers := ((∅ : GidMap Entity).insert (.padded [3]) (chatterReader patientRequest)).insert
      (.padded [4]) (chatterReader .standard) }

theorem resolveOnTopic_patientAndStandardReaders :
    Profile.bestAvailable.LeavesAllOpen ∧
      patientAndStandardReaders.readers[Gid.padded [3]]? = some (chatterReader patientRequest) ∧
      ∃ resolved,
        patientAndStandardReaders.resolveOnTopic .publisher "chatter" .bestAvailable =
          (.ok (), resolved) ∧
        resolved.deadline = .infinite ∧
        (checkCompatible resolved patientRequest).verdict ≠ .error := by
  have hreader : patientAndStandardReaders.readers[Gid.padded [3]]? =
      some (chatterReader patientRequest) := by
    decide +kernel
  have hdeadline : (patientAndStandardReaders.resolveOnTopic .publisher "chatter"
      .bestAvailable).2.deadline = .infinite := by
    decide +kernel
  obtain ⟨hok, hserves⟩ := resolveOnTopic_publisher_serves Profile.leavesAllOpen_bestAvailable
    patientAndStandardReaders "chatter" id
  exact ⟨Profile.leavesAllOpen_bestAvailable, hreader, _, Prod.ext hok rfl, hdeadline,
    hserves _ _ hreader rfl⟩

end Graph

end DiscoveryGraph
