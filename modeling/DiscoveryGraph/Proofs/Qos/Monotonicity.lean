import DiscoveryGraph.Proofs.Qos.Basic

/-!
# Better offers and lesser requests

An offer that serves a request is improved by raising policies and by offering
durations that are shorter or that were not offered before; the request is
lessened by lowering policies and by asking for durations that are longer, or
for none.  The verdict stays free of errors.

`Duration.unspecified` is the least duration, but as an offer and as a request
it is the weakest one, so that the order alone does not say which of two offers
is better.
-/

namespace DiscoveryGraph

/-! ## Policies -/

/-- The policy is kept, or it is `low` and becomes `high`. -/
def Raised {Policy : Type} (low high policy next : Policy) : Prop :=
  next = policy ∨ (policy = low ∧ next = high)

instance {Policy : Type} [DecidableEq Policy] (low high policy next : Policy) :
    Decidable (Raised low high policy next) :=
  inferInstanceAs (Decidable (_ ∨ _))

/-- Raising the offer and lowering the request does not bring a weak offer
together with a strong request. -/
theorem Raised.not_weak_for_strong {Policy : Type}
    {weak strong offered better requested lesser : Policy} (hne : weak ≠ strong)
    (hoffer : Raised weak strong offered better)
    (hrequest : Raised strong weak requested lesser)
    (h : ¬ (offered = weak ∧ requested = strong)) :
    ¬ (better = weak ∧ lesser = strong) := by
  rintro ⟨hweak, hstrong⟩
  obtain hoffered | ⟨-, hraised⟩ := hoffer
  · obtain hrequested | ⟨-, hlowered⟩ := hrequest
    · exact h ⟨hoffered.symm.trans hweak, hrequested.symm.trans hstrong⟩
    · exact hne (hlowered.symm.trans hstrong)
  · exact hne (hweak.symm.trans hraised)

/-! ## Durations -/

namespace Duration

variable {offered better requested lesser : Duration}

/-- Either none is requested, or one is offered that is not longer. -/
def Meets (offered requested : Duration) : Prop :=
  requested = .unspecified ∨ (offered ≠ .unspecified ∧ offered ≤ requested)

theorem meets_iff :
    offered.Meets requested ↔
      Conflict.notOffered offered requested = false ∧
        Conflict.tooLong offered requested = false := by
  by_cases hrequested : requested = .unspecified
  · simp [Meets, Conflict.notOffered, Conflict.tooLong, hrequested]
  · by_cases hoffered : offered = .unspecified
    · simp [Meets, Conflict.notOffered, Conflict.tooLong, hrequested, hoffered]
    · simp [Meets, Conflict.notOffered, Conflict.tooLong, hrequested, hoffered]

def OffersAtLeast (better offered : Duration) : Prop :=
  better = offered ∨
    (better ≠ .unspecified ∧ (offered = .unspecified ∨ better ≤ offered))

def RequestsAtMost (lesser requested : Duration) : Prop :=
  lesser = requested ∨ lesser = .unspecified ∨
    (requested ≠ .unspecified ∧ lesser ≠ .unspecified ∧ requested ≤ lesser)

instance (better offered : Duration) : Decidable (better.OffersAtLeast offered) :=
  inferInstanceAs (Decidable (_ ∨ _))

instance (lesser requested : Duration) : Decidable (lesser.RequestsAtMost requested) :=
  inferInstanceAs (Decidable (_ ∨ _))

theorem Meets.of_offersAtLeast (h : offered.Meets requested)
    (hoffer : better.OffersAtLeast offered) : better.Meets requested := by
  obtain hnone | ⟨hspecified, hle⟩ := h
  · exact .inl hnone
  · obtain rfl | ⟨hbetter, hunspecified | hshorter⟩ := hoffer
    · exact .inr ⟨hspecified, hle⟩
    · exact absurd hunspecified hspecified
    · exact .inr ⟨hbetter, hshorter.trans hle⟩

theorem Meets.of_requestsAtMost (h : offered.Meets requested)
    (hrequest : lesser.RequestsAtMost requested) : offered.Meets lesser := by
  obtain rfl | hnone | ⟨hrequested, -, hlonger⟩ := hrequest
  · exact h
  · exact .inl hnone
  · obtain hunspecified | ⟨hspecified, hle⟩ := h
    · exact absurd hunspecified hrequested
    · exact .inr ⟨hspecified, hle.trans hlonger⟩

end Duration

/-! ## Profiles -/

namespace Profile

variable {offer better request lesser : Profile}

/-- An offer that serves a request, policy by policy. -/
structure Serves (offer request : Profile) : Prop where
  reliability : ¬ (offer.reliability = .bestEffort ∧ request.reliability = .reliable)
  durability : ¬ (offer.durability = .volatile ∧ request.durability = .transientLocal)
  liveliness : ¬ (offer.liveliness = .automatic ∧ request.liveliness = .manualByTopic)
  deadline : offer.deadline.Meets request.deadline
  lease : offer.lease.Meets request.lease

theorem verdict_ne_error_iff_serves : verdict offer request ≠ .error ↔ offer.Serves request := by
  rw [verdict_ne_error_iff]
  constructor
  · intro h
    exact
      { reliability := by simpa [Conflict.arises] using h .bestEffortForReliable
        durability := by simpa [Conflict.arises] using h .volatileForTransientLocal
        liveliness := by simpa [Conflict.arises] using h .automaticForManual
        deadline := Duration.meets_iff.mpr ⟨h .deadlineNotOffered, h .deadlineTooLong⟩
        lease := Duration.meets_iff.mpr ⟨h .leaseNotOffered, h .leaseTooLong⟩ }
  · intro h c
    obtain ⟨hdeadline, hdeadlineLength⟩ := Duration.meets_iff.mp h.deadline
    obtain ⟨hlease, hleaseLength⟩ := Duration.meets_iff.mp h.lease
    cases c with
    | bestEffortForReliable => simpa [Conflict.arises] using h.reliability
    | volatileForTransientLocal => simpa [Conflict.arises] using h.durability
    | automaticForManual => simpa [Conflict.arises] using h.liveliness
    | deadlineNotOffered => exact hdeadline
    | deadlineTooLong => exact hdeadlineLength
    | leaseNotOffered => exact hlease
    | leaseTooLong => exact hleaseLength

structure OffersAtLeast (better offer : Profile) : Prop where
  reliability : Raised .bestEffort .reliable offer.reliability better.reliability
  durability : Raised .volatile .transientLocal offer.durability better.durability
  liveliness : Raised .automatic .manualByTopic offer.liveliness better.liveliness
  deadline : better.deadline.OffersAtLeast offer.deadline
  lease : better.lease.OffersAtLeast offer.lease

structure RequestsAtMost (lesser request : Profile) : Prop where
  reliability : Raised .reliable .bestEffort request.reliability lesser.reliability
  durability : Raised .transientLocal .volatile request.durability lesser.durability
  liveliness : Raised .manualByTopic .automatic request.liveliness lesser.liveliness
  deadline : lesser.deadline.RequestsAtMost request.deadline
  lease : lesser.lease.RequestsAtMost request.lease

theorem Serves.mono (h : offer.Serves request) (hoffer : better.OffersAtLeast offer)
    (hrequest : lesser.RequestsAtMost request) : better.Serves lesser where
  reliability :=
    hoffer.reliability.not_weak_for_strong (by decide) hrequest.reliability h.reliability
  durability :=
    hoffer.durability.not_weak_for_strong (by decide) hrequest.durability h.durability
  liveliness :=
    hoffer.liveliness.not_weak_for_strong (by decide) hrequest.liveliness h.liveliness
  deadline := (h.deadline.of_offersAtLeast hoffer.deadline).of_requestsAtMost hrequest.deadline
  lease := (h.lease.of_offersAtLeast hoffer.lease).of_requestsAtMost hrequest.lease

/-- An offer that does not conflict with a request may be replaced by one that offers
at least as much, and the request by one that asks for at most as much. -/
theorem verdict_ne_error_mono (hoffer : better.OffersAtLeast offer)
    (hrequest : lesser.RequestsAtMost request)
    (h : (checkCompatible offer request).verdict ≠ .error) :
    (checkCompatible better lesser).verdict ≠ .error :=
  verdict_ne_error_iff_serves.mpr
    ((verdict_ne_error_iff_serves.mp h).mono hoffer hrequest)

def modestOffer : Profile :=
  { standard with
    reliability := .bestEffort
    durability := .transientLocal
    deadline := .ofSeconds 5 }

def keenOffer : Profile :=
  { modestOffer with
    reliability := .reliable
    deadline := .ofSeconds 3
    lease := .ofSeconds 1 }

def strictRequest : Profile :=
  { standard with
    reliability := .bestEffort
    durability := .transientLocal
    deadline := .ofSeconds 5 }

def easyRequest : Profile :=
  { strictRequest with
    durability := .volatile
    deadline := .ofSeconds 8 }

theorem verdict_keenOffer_easyRequest_ne_error :
    keenOffer.OffersAtLeast modestOffer ∧ easyRequest.RequestsAtMost strictRequest ∧
      (checkCompatible modestOffer strictRequest).verdict ≠ .error ∧
      (checkCompatible keenOffer easyRequest).verdict ≠ .error := by
  have hoffer : keenOffer.OffersAtLeast modestOffer :=
    ⟨by decide, by decide, by decide, by decide, by decide⟩
  have hrequest : easyRequest.RequestsAtMost strictRequest :=
    ⟨by decide, by decide, by decide, by decide, by decide⟩
  have hverdict : (checkCompatible modestOffer strictRequest).verdict ≠ .error := by decide
  exact ⟨hoffer, hrequest, hverdict, verdict_ne_error_mono hoffer hrequest hverdict⟩

end Profile

end DiscoveryGraph
