import DiscoveryGraph.Proofs.Qos.Extremes
import Mathlib.Tactic.SplitIfs

/-!
# What resolution settles, and what it leaves alone

A resolved profile differs from the one it comes from only in settings that were
left open, and the policies among these are settled.  A duration is taken from
the peers, so it is left open again where a peer leaves it open; the settings of
services come from no peer, and nothing stays open there.
-/

namespace DiscoveryGraph

/-! ## Choices -/

/-- A choice from the profiles settles every policy, and a duration unless some
profile leaves it open. -/
structure Choice.SettlesFrom (c : Choice) (profiles : List Profile) : Prop where
  reliability : c.reliability ≠ .bestAvailable
  durability : c.durability ≠ .bestAvailable
  liveliness : c.liveliness ≠ .bestAvailable
  deadline : c.deadline = .bestAvailable → ∃ p ∈ profiles, p.deadline = .bestAvailable
  lease : c.lease = .bestAvailable → ∃ p ∈ profiles, p.lease = .bestAvailable

namespace Choice

theorem exists_of_longest_eq_bestAvailable {profiles : List Profile}
    {duration : Profile → Duration}
    (hlongest : longest (profiles.map duration) = .bestAvailable) :
    ∃ p ∈ profiles, duration p = .bestAvailable := by
  have hextreme := isLongestOf_longest (profiles.map duration)
  rw [hlongest] at hextreme
  have hmem : Duration.bestAvailable ∈ profiles.map duration := hextreme.mem (by decide)
  exact List.mem_map.mp hmem

theorem exists_of_shortest_eq_bestAvailable {profiles : List Profile}
    {duration : Profile → Duration}
    (hshortest : shortest (profiles.map duration) = .bestAvailable) :
    ∃ p ∈ profiles, duration p = .bestAvailable := by
  have hextreme := isShortestOf_shortest (profiles.map duration)
  rw [hshortest] at hextreme
  have hmem : Duration.bestAvailable ∈ profiles.map duration :=
    hextreme.mem (by decide) (by decide)
  exact List.mem_map.mp hmem

theorem settlesFrom_forSubscription (offers : List Profile) :
    (forSubscription offers).SettlesFrom offers where
  reliability := by
    simp only [forSubscription]
    split_ifs <;> decide
  durability := by
    simp only [forSubscription]
    split_ifs <;> decide
  liveliness := by
    simp only [forSubscription]
    split_ifs <;> decide
  deadline := exists_of_longest_eq_bestAvailable
  lease := exists_of_longest_eq_bestAvailable

theorem settlesFrom_forPublisher (requests : List Profile) :
    (forPublisher requests).SettlesFrom requests where
  reliability := by simp [forPublisher]
  durability := by simp [forPublisher]
  liveliness := by
    simp only [forPublisher]
    split_ifs <;> decide
  deadline := exists_of_shortest_eq_bestAvailable
  lease := exists_of_shortest_eq_bestAvailable

theorem settlesFrom_forKind (kind : EndpointKind) (profiles : List Profile) :
    (forKind kind profiles).SettlesFrom profiles := by
  cases kind with
  | publisher => exact settlesFrom_forPublisher profiles
  | subscription => exact settlesFrom_forSubscription profiles

/-- The settings of services settle everything, whatever the peers leave open. -/
theorem settlesFrom_forServices (profiles : List Profile) :
    forServices.SettlesFrom profiles where
  reliability := by decide
  durability := by decide
  liveliness := by decide
  deadline hopen := absurd hopen (by decide)
  lease hopen := absurd hopen (by decide)

end Choice

/-! ## Profiles -/

namespace Profile

/-- The second profile has every setting of the first that was not left open. -/
structure Refines (q refined : Profile) : Prop where
  history : refined.history = q.history
  depth : refined.depth = q.depth
  lifespan : refined.lifespan = q.lifespan
  plainNames : refined.plainNames = q.plainNames
  reliability : q.reliability ≠ .bestAvailable → refined.reliability = q.reliability
  durability : q.durability ≠ .bestAvailable → refined.durability = q.durability
  liveliness : q.liveliness ≠ .bestAvailable → refined.liveliness = q.liveliness
  deadline : q.deadline ≠ .bestAvailable → refined.deadline = q.deadline
  lease : q.lease ≠ .bestAvailable → refined.lease = q.lease

/-- No policy of the second profile is left open, and a duration is only if it
was so in the first one and is so in one of the profiles. -/
structure SettledFrom (q settled : Profile) (profiles : List Profile) : Prop where
  reliability : settled.reliability ≠ .bestAvailable
  durability : settled.durability ≠ .bestAvailable
  liveliness : settled.liveliness ≠ .bestAvailable
  deadline : settled.deadline = .bestAvailable →
    q.deadline = .bestAvailable ∧ ∃ p ∈ profiles, p.deadline = .bestAvailable
  lease : settled.lease = .bestAvailable →
    q.lease = .bestAvailable ∧ ∃ p ∈ profiles, p.lease = .bestAvailable

variable {q settled : Profile} {c : Choice} {profiles : List Profile}

theorem refines_fill (q : Profile) (c : Choice) : q.Refines (q.fill c) where
  history := rfl
  depth := rfl
  lifespan := rfl
  plainNames := rfl
  reliability hsettled := if_neg hsettled
  durability hsettled := if_neg hsettled
  liveliness hsettled := if_neg hsettled
  deadline hsettled := if_neg hsettled
  lease hsettled := if_neg hsettled

/-- A setting that is replaced only where it is open is open afterwards only if it
was replaced by an open one. -/
theorem ite_eq_open_iff {Setting : Type} [DecidableEq Setting] {kept chosen opened : Setting} :
    (if kept = opened then chosen else kept) = opened ↔ kept = opened ∧ chosen = opened := by
  split_ifs with hopen
  · exact (and_iff_right hopen).symm
  · exact iff_of_false hopen fun h => hopen h.1

theorem settledFrom_fill (hc : c.SettlesFrom profiles) (q : Profile) :
    q.SettledFrom (q.fill c) profiles where
  reliability hopen := hc.reliability (ite_eq_open_iff.mp hopen).2
  durability hopen := hc.durability (ite_eq_open_iff.mp hopen).2
  liveliness hopen := hc.liveliness (ite_eq_open_iff.mp hopen).2
  deadline hopen := (ite_eq_open_iff.mp hopen).imp_right hc.deadline
  lease hopen := (ite_eq_open_iff.mp hopen).imp_right hc.lease

theorem SettledFrom.hasBestAvailable (hsettled : q.SettledFrom settled profiles)
    (hdeadline : ∀ p ∈ profiles, p.deadline ≠ .bestAvailable)
    (hlease : ∀ p ∈ profiles, p.lease ≠ .bestAvailable) :
    settled.hasBestAvailable = false := by
  have hdeadline' : settled.deadline ≠ .bestAvailable := by
    intro hopen
    obtain ⟨-, p, hp, hpopen⟩ := hsettled.deadline hopen
    exact hdeadline p hp hpopen
  have hlease' : settled.lease ≠ .bestAvailable := by
    intro hopen
    obtain ⟨-, p, hp, hpopen⟩ := hsettled.lease hopen
    exact hlease p hp hpopen
  simp [Profile.hasBestAvailable, hsettled.reliability, hsettled.durability,
    hsettled.liveliness, hdeadline', hlease']

/-- Every resolution refines the profile.  From peers it leaves a duration open
only if it was open and some peer leaves it open too, and the settings of services
leave nothing open. -/
theorem resolve_settles (q : Profile) (peers : List EndpointInfo) :
    (∀ kind : EndpointKind,
      q.Refines (q.resolve kind peers) ∧
        q.SettledFrom (q.resolve kind peers) (peers.map (·.qos)) ∧
        ((∀ peer ∈ peers,
            peer.qos.deadline ≠ .bestAvailable ∧ peer.qos.lease ≠ .bestAvailable) →
          (q.resolve kind peers).hasBestAvailable = false)) ∧
      q.Refines q.resolveForServices ∧
      q.SettledFrom q.resolveForServices [] ∧
      q.resolveForServices.hasBestAvailable = false := by
  constructor
  · intro kind
    have hsettled : q.SettledFrom (q.resolve kind peers) (peers.map (·.qos)) :=
      settledFrom_fill (Choice.settlesFrom_forKind kind _) q
    refine ⟨refines_fill q _, hsettled, fun hpeers => ?_⟩
    apply hsettled.hasBestAvailable <;> rw [List.forall_mem_map]
    · exact fun peer hpeer => (hpeers peer hpeer).1
    · exact fun peer hpeer => (hpeers peer hpeer).2
  · have hsettled : q.SettledFrom q.resolveForServices [] :=
      settledFrom_fill (Choice.settlesFrom_forServices []) q
    exact ⟨refines_fill q _, hsettled, hsettled.hasBestAvailable (by simp) (by simp)⟩

end Profile

end DiscoveryGraph
