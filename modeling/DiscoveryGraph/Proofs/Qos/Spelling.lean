import DiscoveryGraph.Proofs.Duration.Span
import DiscoveryGraph.Proofs.Qos.Basic

/-!
# Durations that are spelled differently

A span of time can be spelled by more than one duration, because whole seconds may
stand in the nanoseconds.  Durations are compared as they are spelled, seconds first.
Where that order is the order of the spans, the comparison of an offer with a request
does not depend on the spelling; where it is not, a deadline that is not shorter can be
reported as shorter.  Nanoseconds below one second put the durations in order.
-/

namespace DiscoveryGraph

/-! ## Durations as spans of time -/

namespace Duration

variable {a b offered requested : Duration}

theorem tooLong_iff_spans_iff_inOrder :
    (Conflict.tooLong offered requested = true ↔
        0 < requested.nanoseconds ∧ requested.nanoseconds < offered.nanoseconds) ↔
      requested.InOrder offered := by
  by_cases hnone : requested = .unspecified ∨ offered = .unspecified
  · have hshort : Conflict.tooLong offered requested = false := by
      obtain rfl | rfl := hnone
      · simp [Conflict.tooLong]
      · simp [Conflict.tooLong]
    have hspans : ¬ (0 < requested.nanoseconds ∧ requested.nanoseconds < offered.nanoseconds) := by
      obtain hrequested | hoffered := hnone
      · have hzero := nanoseconds_eq_zero_iff.mpr hrequested
        omega
      · have hzero := nanoseconds_eq_zero_iff.mpr hoffered
        omega
    simp [hshort, hspans, inOrder_of_eq_unspecified hnone]
  · obtain ⟨hrequested, hoffered⟩ := not_or.mp hnone
    have hpositive : 0 < requested.nanoseconds :=
      Nat.pos_of_ne_zero (mt nanoseconds_eq_zero_iff.mp hrequested)
    simp [Conflict.tooLong, InOrder, hrequested, hoffered, hpositive]

variable {offered' requested' : Duration}

theorem eq_unspecified_congr (h : a.nanoseconds = b.nanoseconds) :
    a = .unspecified ↔ b = .unspecified := by
  rw [← nanoseconds_eq_zero_iff, ← nanoseconds_eq_zero_iff, h]

theorem notOffered_congr (hoffered : offered'.nanoseconds = offered.nanoseconds)
    (hrequested : requested'.nanoseconds = requested.nanoseconds) :
    Conflict.notOffered offered' requested' = Conflict.notOffered offered requested := by
  simp only [Conflict.notOffered, ne_eq, eq_unspecified_congr hoffered,
    eq_unspecified_congr hrequested]

/-- Among the spellings of two spans those in order are told apart by what is reported. -/
theorem tooLong_congr_iff (hoffered : offered'.nanoseconds = offered.nanoseconds)
    (hrequested : requested'.nanoseconds = requested.nanoseconds)
    (horder : requested.InOrder offered) :
    Conflict.tooLong offered' requested' = Conflict.tooLong offered requested ↔
      requested'.InOrder offered' := by
  rw [Bool.eq_iff_iff, tooLong_iff_spans_iff_inOrder.mpr horder, ← hoffered, ← hrequested]
  exact tooLong_iff_spans_iff_inOrder

end Duration

/-! ## Profiles -/

namespace Profile

variable {offer offer' request request' : Profile}

/-- The same profile but for the spelling of its deadline and its lease. -/
inductive Respelled (q : Profile) : Profile → Prop
  | respell {deadline lease : Duration}
      (hdeadline : deadline.nanoseconds = q.deadline.nanoseconds)
      (hlease : lease.nanoseconds = q.lease.nanoseconds) :
      Respelled q { q with deadline, lease }

structure InOrder (offer request : Profile) : Prop where
  deadline : request.deadline.InOrder offer.deadline
  lease : request.lease.InOrder offer.lease

structure Carried (q : Profile) : Prop where
  deadline : q.deadline.Carried
  lease : q.lease.Carried

theorem Carried.inOrder (hoffer : offer.Carried) (hrequest : request.Carried) :
    offer.InOrder request :=
  ⟨hrequest.deadline.inOrder hoffer.deadline, hrequest.lease.inOrder hoffer.lease⟩

/-- Of spellings that are in order the same conflicts are reported, and of others not. -/
theorem conflicts_eq_iff_inOrder (hoffer : offer.Respelled offer')
    (hrequest : request.Respelled request') (horder : offer.InOrder request) :
    conflicts offer' request' = conflicts offer request ↔ offer'.InOrder request' := by
  obtain ⟨hofferDeadline, hofferLease⟩ := hoffer
  obtain ⟨hrequestDeadline, hrequestLease⟩ := hrequest
  have hdeadline := Duration.tooLong_congr_iff hofferDeadline hrequestDeadline horder.deadline
  have hlease := Duration.tooLong_congr_iff hofferLease hrequestLease horder.lease
  rw [conflicts_eq_iff]
  constructor
  · intro h
    exact ⟨hdeadline.mp (h .deadlineTooLong), hlease.mp (h .leaseTooLong)⟩
  · intro h c
    cases c with
    | deadlineNotOffered => exact Duration.notOffered_congr hofferDeadline hrequestDeadline
    | leaseNotOffered => exact Duration.notOffered_congr hofferLease hrequestLease
    | deadlineTooLong => exact hdeadline.mpr h.deadline
    | leaseTooLong => exact hlease.mpr h.lease
    | _ => rfl

/-- What stays open does not depend on durations. -/
theorem Respelled.doubts_eq (hoffer : offer.Respelled offer')
    (hrequest : request.Respelled request') : doubts offer' request' = doubts offer request := by
  obtain ⟨-, -⟩ := hoffer
  obtain ⟨-, -⟩ := hrequest
  rfl

/-- Durations are compared as they are spelled.  Where all nanoseconds are below one
second the order of the spellings is that of the spans, and wherever it is so, a
duration is reported as too long exactly if a shorter span is requested.  Another
spelling of the same spans then leads to the same report, verdict and reason, if it is
in order as well, and to different conflicts if it is not. -/
theorem checkCompatible_respelled (hoffer : offer.Respelled offer')
    (hrequest : request.Respelled request') :
    (offer.Carried → request.Carried → offer.InOrder request) ∧
      (offer.InOrder request →
        (.deadlineTooLong ∈ conflicts offer request ↔
            0 < request.deadline.nanoseconds ∧
              request.deadline.nanoseconds < offer.deadline.nanoseconds) ∧
          (.leaseTooLong ∈ conflicts offer request ↔
            0 < request.lease.nanoseconds ∧
              request.lease.nanoseconds < offer.lease.nanoseconds) ∧
          (offer'.InOrder request' →
            checkCompatible offer' request' = checkCompatible offer request) ∧
          (¬ offer'.InOrder request' →
            conflicts offer' request' ≠ conflicts offer request)) := by
  refine ⟨fun hcarried hcarried' => hcarried.inOrder hcarried', fun horder => ?_⟩
  have hconflicts := conflicts_eq_iff_inOrder hoffer hrequest horder
  refine ⟨?_, ?_, ?_, mt hconflicts.mp⟩
  · exact mem_conflicts_iff.trans (Duration.tooLong_iff_spans_iff_inOrder.mpr horder.deadline)
  · exact mem_conflicts_iff.trans (Duration.tooLong_iff_spans_iff_inOrder.mpr horder.lease)
  · intro horder'
    simp only [checkCompatible, verdict, entries, hconflicts.mpr horder',
      hoffer.doubts_eq hrequest]

/-- A profile with a deadline and a lease, and settings that leave nothing open. -/
def timed (deadline lease : Duration) : Profile :=
  { standard with liveliness := .automatic, deadline, lease }

theorem checkCompatible_timed_respelled :
    (timed ⟨1, 0⟩ ⟨3, 0⟩).Respelled (timed ⟨0, 1000000000⟩ ⟨2, 1000000000⟩) ∧
      (timed ⟨1, 500000000⟩ ⟨2, 0⟩).Respelled (timed ⟨0, 1500000000⟩ ⟨1, 1000000000⟩) ∧
      checkCompatible (timed ⟨0, 1000000000⟩ ⟨2, 1000000000⟩)
          (timed ⟨0, 1500000000⟩ ⟨1, 1000000000⟩) =
        checkCompatible (timed ⟨1, 0⟩ ⟨3, 0⟩) (timed ⟨1, 500000000⟩ ⟨2, 0⟩) := by
  have hoffer : (timed ⟨1, 0⟩ ⟨3, 0⟩).Respelled (timed ⟨0, 1000000000⟩ ⟨2, 1000000000⟩) :=
    .respell (by decide) (by decide)
  have hrequest : (timed ⟨1, 500000000⟩ ⟨2, 0⟩).Respelled
      (timed ⟨0, 1500000000⟩ ⟨1, 1000000000⟩) :=
    .respell (by decide) (by decide)
  obtain ⟨hcarried, hinOrder⟩ := checkCompatible_respelled hoffer hrequest
  have horder := hcarried ⟨by decide, by decide⟩ ⟨by decide, by decide⟩
  obtain ⟨-, -, hreport, -⟩ := hinOrder horder
  exact ⟨hoffer, hrequest, hreport ⟨by decide, by decide⟩⟩

/-- A deadline of one second that is spelled in nanoseconds is taken for shorter than
the same deadline. -/
theorem not_forall_verdict_respelled :
    ¬ ∀ offer offer' request request' : Profile,
      offer.Respelled offer' → request.Respelled request' →
        (checkCompatible offer' request').verdict =
          (checkCompatible offer request).verdict := by
  intro hclaim
  have hrequest : (timed ⟨1, 0⟩ ⟨0, 0⟩).Respelled (timed ⟨0, 1000000000⟩ ⟨0, 0⟩) :=
    .respell (by decide) (by decide)
  have hsame := hclaim _ _ _ _ (.respell rfl rfl : (timed ⟨1, 0⟩ ⟨0, 0⟩).Respelled _) hrequest
  exact absurd hsame (by decide)

end Profile

end DiscoveryGraph
