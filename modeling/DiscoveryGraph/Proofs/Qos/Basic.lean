import DiscoveryGraph.Proofs.Duration
import DiscoveryGraph.Qos.Compatibility
import DiscoveryGraph.Qos.Resolution

/-!
# Verdicts, and profiles that leave all open

A verdict is an error exactly if some conflict arises.  A profile that leaves
every policy to its peers takes all of them from the choice that it is filled in
with, and its peers are fetched.
-/

namespace DiscoveryGraph

/-! ## Conflicts behind a verdict -/

theorem Conflict.mem_all (c : Conflict) : c ∈ Conflict.all := by
  cases c <;> decide

theorem mem_conflicts_iff {offer request : Profile} {c : Conflict} :
    c ∈ conflicts offer request ↔ c.arises offer request = true := by
  rw [conflicts, List.mem_filter]
  exact and_iff_right c.mem_all

theorem verdict_eq_error_iff {offer request : Profile} :
    verdict offer request = .error ↔ ∃ c : Conflict, c.arises offer request = true := by
  have hconflicts : (conflicts offer request).isEmpty = false ↔
      ∃ c : Conflict, c.arises offer request = true := by
    rw [List.isEmpty_eq_false_iff_exists_mem]
    exact exists_congr fun c => mem_conflicts_iff
  rw [← hconflicts, verdict]
  cases hempty : (conflicts offer request).isEmpty with
  | false => simp
  | true => cases (doubts offer request).isEmpty <;> simp

theorem verdict_ne_error_iff {offer request : Profile} :
    verdict offer request ≠ .error ↔ ∀ c : Conflict, c.arises offer request = false := by
  rw [Ne, verdict_eq_error_iff]
  simp

theorem conflicts_eq_iff {offer offer' request request' : Profile} :
    conflicts offer' request' = conflicts offer request ↔
      ∀ c : Conflict, c.arises offer' request' = c.arises offer request := by
  constructor
  · intro h c
    rw [Bool.eq_iff_iff, ← mem_conflicts_iff, ← mem_conflicts_iff, h]
  · intro h
    rw [conflicts, conflicts, funext h]

namespace Profile

/-- The settings of a profile that can be left to the peers. -/
def choice (q : Profile) : Choice where
  reliability := q.reliability
  durability := q.durability
  liveliness := q.liveliness
  deadline := q.deadline
  lease := q.lease

/-! ## Profiles that leave all open -/

/-- All five policies that can be left to the peers are left to them. -/
structure LeavesAllOpen (q : Profile) : Prop where
  reliability : q.reliability = .bestAvailable
  durability : q.durability = .bestAvailable
  liveliness : q.liveliness = .bestAvailable
  deadline : q.deadline = .bestAvailable
  lease : q.lease = .bestAvailable

theorem leavesAllOpen_bestAvailable : bestAvailable.LeavesAllOpen :=
  ⟨rfl, rfl, rfl, rfl, rfl⟩

variable {q : Profile}

theorem LeavesAllOpen.fill_eq (hq : q.LeavesAllOpen) (c : Choice) :
    q.fill c =
      { q with
        reliability := c.reliability
        durability := c.durability
        liveliness := c.liveliness
        deadline := c.deadline
        lease := c.lease } := by
  simp [fill, hq.reliability, hq.durability, hq.liveliness, hq.deadline, hq.lease]

theorem LeavesAllOpen.hasBestAvailable (hq : q.LeavesAllOpen) : q.hasBestAvailable = true := by
  simp [Profile.hasBestAvailable, hq.reliability]

/-- Where fetching succeeds, a profile that leaves all open is resolved from the
peers that were fetched. -/
theorem LeavesAllOpen.resolveOnTopic_eq {m : Type → Type} [Monad m] [LawfulMonad m]
    {node : Type} {fetch : node → String → EndpointKind → m (Except Error (List EndpointInfo))}
    (hq : q.LeavesAllOpen) {kind : EndpointKind} {n : node} {topic : String}
    {peers : List EndpointInfo} (hfetch : fetch n topic kind.opposite = pure (.ok peers)) :
    q.resolveOnTopic kind fetch n topic = pure (.ok (), q.resolve kind peers) := by
  simp [resolveOnTopic, hq.hasBestAvailable, hfetch]

end Profile

end DiscoveryGraph
