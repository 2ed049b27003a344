import DiscoveryGraph.Proofs.Duration

/-!
# Durations as spans of time

A duration stands for a span, an exact count of nanoseconds, and a span can be spelled by
more than one duration, because whole seconds may stand in the nanoseconds.  Nanoseconds
below one second leave one spelling only, and such spellings are ordered as their spans.
-/

namespace DiscoveryGraph.Duration

variable {a b : Duration}

theorem nanoseconds_eq_zero_iff : a.nanoseconds = 0 ↔ a = .unspecified := by
  rw [ext_iff, ← UInt64.toNat_inj, ← UInt64.toNat_inj, nanoseconds]
  simp only [unspecified, UInt64.toNat_zero]
  omega

/-- The order of the two durations is the order of the spans. -/
def InOrder (a b : Duration) : Prop := a < b ↔ a.nanoseconds < b.nanoseconds

instance (a b : Duration) : Decidable (a.InOrder b) :=
  inferInstanceAs (Decidable (_ ↔ _))

/-- The nanoseconds hold no whole second. -/
def Carried (d : Duration) : Prop := d.nsec < nanosecondsPerSecond

instance (d : Duration) : Decidable d.Carried := inferInstanceAs (Decidable (_ < _))

theorem carried_iff : a.Carried ↔ a.nsec.toNat < 1000000000 := by
  rw [Carried, UInt64.lt_iff_toNat_lt]
  rfl

theorem Carried.inOrder (ha : a.Carried) (hb : b.Carried) : a.InOrder b := by
  rw [carried_iff] at ha hb
  rw [InOrder, lt_iff, UInt64.lt_iff_toNat_lt, UInt64.lt_iff_toNat_lt, ← UInt64.toNat_inj,
    nanoseconds, nanoseconds]
  omega

theorem Carried.le_iff (ha : a.Carried) (hb : b.Carried) :
    a ≤ b ↔ a.nanoseconds ≤ b.nanoseconds := by
  have hlt : b < a ↔ b.nanoseconds < a.nanoseconds := hb.inOrder ha
  rw [← not_lt, hlt, Nat.not_lt]

/-- A span has one spelling without whole seconds in the nanoseconds. -/
theorem Carried.eq_iff (ha : a.Carried) (hb : b.Carried) :
    a = b ↔ a.nanoseconds = b.nanoseconds := by
  rw [le_antisymm_iff, ha.le_iff hb, hb.le_iff ha, ← Nat.le_antisymm_iff]

theorem inOrder_of_eq_unspecified (h : a = .unspecified ∨ b = .unspecified) : a.InOrder b := by
  obtain rfl | rfl := h
  · rw [InOrder, unspecified_lt_iff, ne_eq, ← nanoseconds_eq_zero_iff,
      nanoseconds_eq_zero_iff.mpr rfl]
    omega
  · rw [InOrder, nanoseconds_eq_zero_iff.mpr rfl]
    have hleast : ¬ a < .unspecified := not_lt.mpr (unspecified_le a)
    simp [hleast]

end DiscoveryGraph.Duration
