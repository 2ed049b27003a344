import DiscoveryGraph.Proofs.Qos.Extremes
import Mathlib.Tactic.Tauto

/-!
# Resolution looks at the set of the peers' profiles

Peers are discovered in any order, and several may use one profile.  A resolution
does not notice: of a peer it reads the profile only, and every setting it chooses
is fixed by which profiles there are.  Resolving once more changes nothing, even
where a duration is still open because a peer leaves it open.
-/

namespace DiscoveryGraph

/-! ## Choices from the same profiles -/

namespace Choice

variable {profiles profiles' : List Profile}

theorem all_eq_of_mem_iff (hsame : ∀ p, p ∈ profiles ↔ p ∈ profiles')
    (holds : Profile → Bool) : profiles.all holds = profiles'.all holds := by
  rw [Bool.eq_iff_iff, List.all_eq_true, List.all_eq_true]
  exact forall_congr' fun p => imp_congr_left (hsame p)

theorem any_eq_of_mem_iff (hsame : ∀ p, p ∈ profiles ↔ p ∈ profiles')
    (holds : Profile → Bool) : profiles.any holds = profiles'.any holds := by
  rw [Bool.eq_iff_iff, List.any_eq_true, List.any_eq_true]
  exact exists_congr fun p => and_congr_left' (hsame p)

theorem mem_map_iff_of_mem_iff (hsame : ∀ p, p ∈ profiles ↔ p ∈ profiles')
    (duration : Profile → Duration) (d : Duration) :
    d ∈ profiles.map duration ↔ d ∈ profiles'.map duration := by
  rw [List.mem_map, List.mem_map]
  exact exists_congr fun p => and_congr_left' (hsame p)

theorem forSubscription_eq_of_mem_iff (hsame : ∀ p, p ∈ profiles ↔ p ∈ profiles') :
    forSubscription profiles = forSubscription profiles' := by
  simp only [forSubscription, all_eq_of_mem_iff hsame,
    longest_eq_of_mem_iff (mem_map_iff_of_mem_iff hsame _)]

theorem forPublisher_eq_of_mem_iff (hsame : ∀ p, p ∈ profiles ↔ p ∈ profiles') :
    forPublisher profiles = forPublisher profiles' := by
  simp only [forPublisher, any_eq_of_mem_iff hsame,
    shortest_eq_of_mem_iff (mem_map_iff_of_mem_iff hsame _)]

theorem forKind_eq_of_mem_iff (hsame : ∀ p, p ∈ profiles ↔ p ∈ profiles')
    (kind : EndpointKind) : forKind kind profiles = forKind kind profiles' := by
  cases kind with
  | publisher => exact forPublisher_eq_of_mem_iff hsame
  | subscription => exact forSubscription_eq_of_mem_iff hsame

end Choice

namespace Profile

/-! ## Filling in twice -/

/-- Replacing an open setting twice by one value is replacing it once. -/
theorem ite_ite_open {Setting : Type} [DecidableEq Setting] (kept chosen opened : Setting) :
    (if (if kept = opened then chosen else kept) = opened then chosen
      else if kept = opened then chosen else kept) =
      if kept = opened then chosen else kept := by
  by_cases hopen : kept = opened
  · rw [if_pos hopen, ite_self]
  · rw [if_neg hopen, if_neg hopen]

theorem fill_fill (q : Profile) (c : Choice) : (q.fill c).fill c = q.fill c := by
  unfold fill
  congr 1 <;> exact ite_ite_open _ _ _

/-! ## Peers with the same profiles -/

variable {peers peers' : List EndpointInfo}

/-- The peers in the one list have the profiles of the peers in the other. -/
def SameProfiles (peers peers' : List EndpointInfo) : Prop :=
  ∀ p, p ∈ peers.map (·.qos) ↔ p ∈ peers'.map (·.qos)

/-- The durations that the peers have in their profiles. -/
def peerDurations (duration : Profile → Duration) (peers : List EndpointInfo) :
    Set Duration :=
  {d | ∃ peer ∈ peers, duration peer.qos = d}

theorem setOf_mem_map_qos (duration : Profile → Duration) (peers : List EndpointInfo) :
    {d | d ∈ (peers.map (·.qos)).map duration} = peerDurations duration peers := by
  ext d
  simp [peerDurations]

theorem isLongestOf_peerDurations (duration : Profile → Duration)
    (peers : List EndpointInfo) :
    Duration.IsLongestOf (peerDurations duration peers)
      (Choice.longest ((peers.map (·.qos)).map duration)) := by
  rw [← setOf_mem_map_qos]
  exact Choice.isLongestOf_longest _

theorem isShortestOf_peerDurations (duration : Profile → Duration)
    (peers : List EndpointInfo) :
    Duration.IsShortestOf (peerDurations duration peers)
      (Choice.shortest ((peers.map (·.qos)).map duration)) := by
  rw [← setOf_mem_map_qos]
  exact Choice.isShortestOf_shortest _

/-- Peers with the same profiles resolve a profile to the same one, and that one to
itself.  A subscription takes the longest of the peers' durations where it leaves one
open, and a publisher the shortest of these and the infinite one. -/
theorem resolve_of_sameProfiles (hsame : SameProfiles peers peers') (q : Profile) :
    (∀ kind : EndpointKind,
      q.resolve kind peers = q.resolve kind peers' ∧
        (q.resolve kind peers).resolve kind peers = q.resolve kind peers) ∧
      (q.deadline = .bestAvailable →
        Duration.IsLongestOf (peerDurations (·.deadline) peers)
            (q.resolve .subscription peers).deadline ∧
          Duration.IsShortestOf (peerDurations (·.deadline) peers)
            (q.resolve .publisher peers).deadline) ∧
      (q.lease = .bestAvailable →
        Duration.IsLongestOf (peerDurations (·.lease) peers)
            (q.resolve .subscription peers).lease ∧
          Duration.IsShortestOf (peerDurations (·.lease) peers)
            (q.resolve .publisher peers).lease) := by
  refine ⟨fun kind => ⟨?_, fill_fill q _⟩, fun hdeadline => ?_, fun hlease => ?_⟩
  · rw [resolve, resolve, Choice.forKind_eq_of_mem_iff hsame]
  · have hfill (c : Choice) : (q.fill c).deadline = c.deadline := if_pos hdeadline
    rw [resolve, resolve, hfill, hfill]
    exact ⟨isLongestOf_peerDurations _ peers, isShortestOf_peerDurations _ peers⟩
  · have hfill (c : Choice) : (q.fill c).lease = c.lease := if_pos hlease
    rw [resolve, resolve, hfill, hfill]
    exact ⟨isLongestOf_peerDurations _ peers, isShortestOf_peerDurations _ peers⟩

/-- A publisher of so many seconds' deadline, owned by the node of that name. -/
def punctualPeer (name : String) (seconds : UInt64) : EndpointInfo :=
  { EndpointInfo.ofProfile .publisher { standard with deadline := .ofSeconds seconds } with
    node := ⟨name, "/"⟩ }

/-- Three publishers with two profiles among them, against two with the same. -/
theorem resolve_punctualPeers :
    SameProfiles [punctualPeer "talker" 5, punctualPeer "clock" 1, punctualPeer "echo" 5]
        [punctualPeer "clock" 1, punctualPeer "lamp" 5] ∧
      bestAvailable.resolve .subscription
          [punctualPeer "talker" 5, punctualPeer "clock" 1, punctualPeer "echo" 5] =
        bestAvailable.resolve .subscription [punctualPeer "clock" 1, punctualPeer "lamp" 5] ∧
      Duration.IsLongestOf (peerDurations (·.deadline)
          [punctualPeer "talker" 5, punctualPeer "clock" 1, punctualPeer "echo" 5])
        (.ofSeconds 5) := by
  have hsame : SameProfiles
      [punctualPeer "talker" 5, punctualPeer "clock" 1, punctualPeer "echo" 5]
      [punctualPeer "clock" 1, punctualPeer "lamp" 5] := by
    intro p
    simp only [punctualPeer, List.map_cons, List.map_nil, List.mem_cons]
    tauto
  obtain ⟨hkinds, hdeadline, -⟩ := resolve_of_sameProfiles hsame bestAvailable
  exact ⟨hsame, (hkinds .subscription).1, (hdeadline rfl).1⟩

end Profile

end DiscoveryGraph
