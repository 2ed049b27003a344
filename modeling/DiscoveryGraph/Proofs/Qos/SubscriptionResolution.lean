import DiscoveryGraph.Proofs.Qos.Basic
import DiscoveryGraph.Proofs.Qos.Extremes

/-!
# Resolved subscriptions and the publishers they were resolved from

A subscription that leaves every policy open takes reliability, durability and
liveliness from what all publishers offer, and each duration from the publishers
that specify one.  The first three never conflict with a publisher.  A duration
does conflict with every publisher that leaves it unspecified as soon as another
one specifies it; there is no other conflict.
-/

namespace DiscoveryGraph

/-! ## Conflicts with the longest specified duration -/

namespace Choice

variable {d : Duration} {ds : List Duration}

theorem notOffered_longest_iff :
    Conflict.notOffered d (longest ds) = true ↔
      d = .unspecified ∧ ∃ e ∈ ds, e ≠ .unspecified := by
  have hlongest : longest ds ≠ .unspecified ↔ ∃ e ∈ ds, e ≠ .unspecified := by
    rw [Ne, longest_eq_unspecified_iff]
    simp
  rw [← hlongest]
  simp [Conflict.notOffered]

theorem tooLong_longest (hd : d ∈ ds) : Conflict.tooLong d (longest ds) = false := by
  have hle : ¬ longest ds < d := not_lt.mpr (le_longest hd)
  simp [Conflict.tooLong, hle]

end Choice

/-! ## Filling in a subscription -/

namespace Profile

variable {q : Profile} {offers : List Profile} {offer : Profile}

/-- A publisher that makes the weak choice rules out that all make the strong
one. -/
theorem not_forall_eq {Policy : Type} {weak strong : Policy} (hne : weak ≠ strong)
    (policy : Profile → Policy) (hoffer : offer ∈ offers) (hweak : policy offer = weak) :
    ¬ ∀ other ∈ offers, policy other = strong := by
  intro hall
  apply hne
  rw [← hweak]
  exact hall offer hoffer

/-- The publisher leaves a duration unspecified and another one specifies it. -/
def Lacks (duration : Profile → Duration) (offers : List Profile) (offer : Profile) : Prop :=
  duration offer = .unspecified ∧ ∃ other ∈ offers, duration other ≠ .unspecified

theorem notOffered_longest_map_iff (duration : Profile → Duration) :
    Conflict.notOffered (duration offer) (Choice.longest (offers.map duration)) = true ↔
      Lacks duration offers offer := by
  rw [Choice.notOffered_longest_iff, Lacks]
  simp

/-- The conflicts that remain between a filled in subscription and one of the
publishers it was filled in from. -/
theorem LeavesAllOpen.arises_fill_iff (hq : q.LeavesAllOpen) (hoffer : offer ∈ offers)
    (c : Conflict) :
    c.arises offer (q.fill (.forSubscription offers)) = true ↔
      (c = .deadlineNotOffered ∧ Lacks (·.deadline) offers offer) ∨
        (c = .leaseNotOffered ∧ Lacks (·.lease) offers offer) := by
  rw [hq.fill_eq]
  cases c with
  | bestEffortForReliable =>
      have hne : Reliability.bestEffort ≠ .reliable := by decide
      have h := not_forall_eq hne (·.reliability) hoffer
      simpa [Conflict.arises, Choice.forSubscription] using h
  | volatileForTransientLocal =>
      have hne : Durability.volatile ≠ .transientLocal := by decide
      have h := not_forall_eq hne (·.durability) hoffer
      simpa [Conflict.arises, Choice.forSubscription] using h
  | automaticForManual =>
      have hne : Liveliness.automatic ≠ .manualByTopic := by decide
      have h := not_forall_eq hne (·.liveliness) hoffer
      simpa [Conflict.arises, Choice.forSubscription] using h
  | deadlineNotOffered =>
      simpa [Conflict.arises, Choice.forSubscription] using
        notOffered_longest_map_iff (·.deadline)
  | leaseNotOffered =>
      simpa [Conflict.arises, Choice.forSubscription] using
        notOffered_longest_map_iff (·.lease)
  | deadlineTooLong =>
      have hmem : offer.deadline ∈ offers.map (·.deadline) := List.mem_map_of_mem hoffer
      simpa [Conflict.arises, Choice.forSubscription] using Choice.tooLong_longest hmem
  | leaseTooLong =>
      have hmem : offer.lease ∈ offers.map (·.lease) := List.mem_map_of_mem hoffer
      simpa [Conflict.arises, Choice.forSubscription] using Choice.tooLong_longest hmem

theorem LeavesAllOpen.verdict_fill_eq_error_iff (hq : q.LeavesAllOpen)
    (hoffer : offer ∈ offers) :
    verdict offer (q.fill (.forSubscription offers)) = .error ↔
      Lacks (·.deadline) offers offer ∨ Lacks (·.lease) offers offer := by
  rw [verdict_eq_error_iff]
  simp only [hq.arises_fill_iff hoffer]
  constructor
  · rintro ⟨c, ⟨-, hdeadline⟩ | ⟨-, hlease⟩⟩
    · exact .inl hdeadline
    · exact .inr hlease
  · rintro (hdeadline | hlease)
    · exact ⟨.deadlineNotOffered, .inl ⟨rfl, hdeadline⟩⟩
    · exact ⟨.leaseNotOffered, .inr ⟨rfl, hlease⟩⟩

/-! ## Publishers that agree -/

/-- Either no publisher specifies the duration or all do. -/
def Agree (duration : Profile → Duration) (offers : List Profile) : Prop :=
  (∀ offer ∈ offers, duration offer = .unspecified) ∨
    ∀ offer ∈ offers, duration offer ≠ .unspecified

instance (duration : Profile → Duration) (offers : List Profile) :
    Decidable (Agree duration offers) :=
  inferInstanceAs (Decidable (_ ∨ _))

theorem agree_iff_forall_not_lacks {duration : Profile → Duration} :
    Agree duration offers ↔ ∀ offer ∈ offers, ¬ Lacks duration offers offer := by
  constructor
  · rintro (hnone | hall) offer hoffer ⟨hunspecified, other, hother, hspecified⟩
    · exact hspecified (hnone other hother)
    · exact hall offer hoffer hunspecified
  · intro hlacks
    by_cases hnone : ∀ offer ∈ offers, duration offer = .unspecified
    · exact .inl hnone
    · push Not at hnone
      exact .inr fun offer hoffer hunspecified => hlacks offer hoffer ⟨hunspecified, hnone⟩

/-- A subscription that is resolved from a list of publishers conflicts with
none of them exactly when the publishers agree, for the deadline and for the
lease, on whether to specify it. -/
theorem verdict_resolve_subscription_ne_error_iff (hq : q.LeavesAllOpen)
    (peers : List EndpointInfo) :
    (∀ peer ∈ peers,
        (checkCompatible peer.qos (q.resolve .subscription peers)).verdict ≠ .error) ↔
      Agree (·.deadline) (peers.map (·.qos)) ∧ Agree (·.lease) (peers.map (·.qos)) := by
  rw [agree_iff_forall_not_lacks, agree_iff_forall_not_lacks, ← forall₂_and, List.forall_mem_map]
  refine forall₂_congr fun peer hpeer => ?_
  have hoffer : peer.qos ∈ peers.map (·.qos) := List.mem_map_of_mem hpeer
  have hverdict := hq.verdict_fill_eq_error_iff hoffer
  rw [← not_or]
  exact not_congr hverdict

/-- A publisher without a deadline. -/
def unhurriedPeer : EndpointInfo := .ofProfile .publisher standard

/-- A publisher with a deadline of so many seconds. -/
def hurriedPeer (seconds : UInt64) : EndpointInfo :=
  .ofProfile .publisher { standard with deadline := .ofSeconds seconds }

theorem verdict_resolve_hurriedPeers :
    bestAvailable.LeavesAllOpen ∧
      ∀ peer ∈ [hurriedPeer 5, hurriedPeer 1],
        (checkCompatible peer.qos
          (bestAvailable.resolve .subscription [hurriedPeer 5, hurriedPeer 1])).verdict ≠
            .error :=
  ⟨leavesAllOpen_bestAvailable,
    (verdict_resolve_subscription_ne_error_iff leavesAllOpen_bestAvailable _).mpr
      (by decide)⟩

theorem not_forall_verdict_resolve_subscription_ne_error :
    ¬ ∀ (q : Profile) (peers : List EndpointInfo), q.LeavesAllOpen → ∀ peer ∈ peers,
      (checkCompatible peer.qos (q.resolve .subscription peers)).verdict ≠ .error := by
  intro hclaim
  have hpeers := hclaim bestAvailable [unhurriedPeer, hurriedPeer 5]
    leavesAllOpen_bestAvailable
  have hunhurried := hpeers unhurriedPeer (by simp)
  exact hunhurried (by decide)

end Profile

end DiscoveryGraph
