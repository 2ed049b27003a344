import DiscoveryGraph.Proofs.Duration.Span

/-!
# The nearest duration that the wire can carry

A clamped duration has its whole seconds in the seconds, and stands for the given span or
for the longest span of the wire, whichever is shorter.  That leaves one duration, so
clamping twice is clamping once, and a longer span is never clamped to a shorter one.
Clamping computes in 64-bit words; `clampExactly?` computes the same in the integers and
gives up where a result has no word, which never happens.
-/

namespace DiscoveryGraph.Duration

variable {a b : UInt64} {d e : Duration}

/-- The longest span that the wire can carry, in nanoseconds. -/
def wireSpanMax : Nat := 2147483647 * 1000000000 + 999999999

theorem toNat_wireSecondsMax : wireSecondsMax.toNat = 2147483647 := rfl

theorem toNat_nanosecondsPerSecond : nanosecondsPerSecond.toNat = 1000000000 := rfl

/-! ## The numbers behind the words -/

theorem toNat_carry (d : Duration) :
    d.carry.toNat = min (d.nsec.toNat / 1000000000) 2147483647 := by
  rw [carry, UInt64.toNat_min, UInt64.toNat_div, toNat_nanosecondsPerSecond,
    toNat_wireSecondsMax]

theorem carry_le_wireSecondsMax (d : Duration) : d.carry ≤ wireSecondsMax := by
  rw [UInt64.le_iff_toNat_le, toNat_carry, toNat_wireSecondsMax]
  exact Nat.min_le_right _ _

theorem toNat_room (d : Duration) :
    (wireSecondsMax - d.carry).toNat = 2147483647 - d.carry.toNat := by
  rw [UInt64.toNat_sub_of_le _ _ d.carry_le_wireSecondsMax, toNat_wireSecondsMax]

theorem toNat_sum (h : d.sec.toNat + d.carry.toNat ≤ 2147483647) :
    (d.sec + d.carry).toNat = d.sec.toNat + d.carry.toNat := by
  rw [UInt64.toNat_add]
  exact Nat.mod_eq_of_lt (by omega)

theorem toNat_carried (d : Duration) :
    (d.carry * nanosecondsPerSecond).toNat = d.carry.toNat * nanosecondsPerSecond.toNat := by
  have hcarry := d.toNat_carry
  rw [UInt64.toNat_mul, toNat_nanosecondsPerSecond]
  exact Nat.mod_eq_of_lt (by omega)

theorem carried_le_nsec (d : Duration) : d.carry * nanosecondsPerSecond ≤ d.nsec := by
  have hcarry := d.toNat_carry
  rw [UInt64.le_iff_toNat_le, toNat_carried, toNat_nanosecondsPerSecond]
  omega

theorem toNat_rest (d : Duration) :
    (d.nsec - d.carry * nanosecondsPerSecond).toNat =
      d.nsec.toNat - d.carry.toNat * 1000000000 := by
  rw [UInt64.toNat_sub_of_le _ _ d.carried_le_nsec, toNat_carried, toNat_nanosecondsPerSecond]

theorem exceedsWire_iff :
    d.exceedsWire = true ↔ 2147483647 < d.sec.toNat + d.nsec.toNat / 1000000000 := by
  have hcarry := d.toNat_carry
  rw [exceedsWire, Bool.or_eq_true, decide_eq_true_iff, decide_eq_true_iff,
    UInt64.lt_iff_toNat_lt, UInt64.lt_iff_toNat_lt, toNat_room, UInt64.toNat_div,
    toNat_nanosecondsPerSecond, toNat_wireSecondsMax]
  omega

/-! ## The clamped duration -/

theorem clamp_of_exceedsWire (h : d.exceedsWire = true) :
    d.clamp = ⟨wireSecondsMax, nanosecondsPerSecond - 1⟩ :=
  if_pos h

theorem clamp_of_not_exceedsWire (h : ¬ d.exceedsWire = true) :
    d.clamp = ⟨d.sec + d.carry, d.nsec - d.carry * nanosecondsPerSecond⟩ :=
  if_neg h

theorem toNat_clamp_of_not_exceedsWire (h : ¬ d.exceedsWire = true) :
    d.clamp.sec.toNat = d.sec.toNat + d.nsec.toNat / 1000000000 ∧
      d.clamp.nsec.toNat = d.nsec.toNat % 1000000000 := by
  have hcarry := d.toNat_carry
  rw [clamp_of_not_exceedsWire h]
  rw [exceedsWire_iff] at h
  rw [toNat_sum (by omega), toNat_rest]
  omega

theorem carried_clamp (d : Duration) : d.clamp.Carried := by
  by_cases h : d.exceedsWire = true
  · rw [clamp_of_exceedsWire h]
    decide
  · obtain ⟨-, hnsec⟩ := toNat_clamp_of_not_exceedsWire h
    rw [carried_iff, hnsec]
    omega

theorem sec_clamp_le (d : Duration) : d.clamp.sec ≤ wireSecondsMax := by
  by_cases h : d.exceedsWire = true
  · rw [clamp_of_exceedsWire h]
    exact UInt64.le_refl _
  · obtain ⟨hsec, -⟩ := toNat_clamp_of_not_exceedsWire h
    rw [exceedsWire_iff] at h
    rw [UInt64.le_iff_toNat_le, hsec, toNat_wireSecondsMax]
    omega

theorem nanoseconds_clamp (d : Duration) :
    d.clamp.nanoseconds = min d.nanoseconds wireSpanMax := by
  by_cases h : d.exceedsWire = true
  · have hmax : d.clamp.nanoseconds = wireSpanMax := by
      rw [clamp_of_exceedsWire h]
      rfl
    rw [exceedsWire_iff] at h
    rw [hmax, nanoseconds, wireSpanMax]
    omega
  · obtain ⟨hsec, hnsec⟩ := toNat_clamp_of_not_exceedsWire h
    rw [exceedsWire_iff] at h
    rw [nanoseconds, nanoseconds, hsec, hnsec, wireSpanMax]
    omega

theorem eq_clamp_iff : e = d.clamp ↔ e.Carried ∧ e.nanoseconds = min d.nanoseconds wireSpanMax := by
  rw [← nanoseconds_clamp]
  constructor
  · rintro rfl
    exact ⟨d.carried_clamp, rfl⟩
  · rintro ⟨hcarried, hspan⟩
    exact (hcarried.eq_iff d.carried_clamp).mpr hspan

theorem clamp_clamp (d : Duration) : d.clamp.clamp = d.clamp := by
  symm
  rw [eq_clamp_iff, nanoseconds_clamp, Nat.min_assoc, Nat.min_self]
  exact ⟨d.carried_clamp, rfl⟩

theorem clamp_le_clamp (h : d.nanoseconds ≤ e.nanoseconds) : d.clamp ≤ e.clamp := by
  rw [d.carried_clamp.le_iff e.carried_clamp, nanoseconds_clamp, nanoseconds_clamp]
  omega

/-! ## Exact arithmetic -/

/-- The word of an integer, if the integer takes no more than 64 bits. -/
def word? (n : Int) : Option UInt64 :=
  if 0 ≤ n ∧ n < UInt64.size then some (.ofNat n.toNat) else none

/-- The sum of two words, if it has a word. -/
def exactSum? (a b : UInt64) : Option UInt64 := word? (a.toNat + b.toNat)

def exactDifference? (a b : UInt64) : Option UInt64 := word? (a.toNat - b.toNat)

def exactProduct? (a b : UInt64) : Option UInt64 := word? (a.toNat * b.toNat)

/-- The seconds of the clamped duration. -/
def exactSeconds? (d : Duration) : Option UInt64 := do
  let room ← exactDifference? wireSecondsMax d.carry
  if room < d.sec then some wireSecondsMax else exactSum? d.sec d.carry

/-- The nanoseconds of the clamped duration. -/
def exactNanoseconds? (d : Duration) : Option UInt64 := do
  if d.exceedsWire then exactDifference? nanosecondsPerSecond 1
  else exactDifference? d.nsec (← exactProduct? d.carry nanosecondsPerSecond)

/-- The clamped duration with every sum, difference and product taken in the integers;
nothing, if one of them has no word. -/
def clampExactly? (d : Duration) : Option Duration := do
  return ⟨← d.exactSeconds?, ← d.exactNanoseconds?⟩

theorem word?_toNat (a : UInt64) : word? a.toNat = some a := by
  have hlt := a.toNat_lt_size
  rw [word?, if_pos (by omega), Int.toNat_natCast, UInt64.ofNat_toNat]

theorem exactSum?_of_toNat_add (h : (a + b).toNat = a.toNat + b.toNat) :
    exactSum? a b = some (a + b) := by
  rw [exactSum?, ← Int.natCast_add, ← h, word?_toNat]

theorem exactDifference?_of_le (h : b ≤ a) : exactDifference? a b = some (a - b) := by
  have hle : b.toNat ≤ a.toNat := UInt64.le_iff_toNat_le.mp h
  rw [exactDifference?, ← Int.ofNat_sub hle, ← UInt64.toNat_sub_of_le _ _ h, word?_toNat]

theorem exactProduct?_of_toNat_mul (h : (a * b).toNat = a.toNat * b.toNat) :
    exactProduct? a b = some (a * b) := by
  rw [exactProduct?, ← Int.natCast_mul, ← h, word?_toNat]

theorem exactSeconds?_eq (d : Duration) : d.exactSeconds? = some d.clamp.sec := by
  have hroom : exactDifference? wireSecondsMax d.carry = some (wireSecondsMax - d.carry) :=
    exactDifference?_of_le d.carry_le_wireSecondsMax
  rw [exactSeconds?, hroom, Option.bind_eq_bind, Option.bind_some]
  by_cases hlate : wireSecondsMax - d.carry < d.sec
  · have hexceeds : d.exceedsWire = true := by simp [exceedsWire, hlate]
    rw [if_pos hlate, clamp_of_exceedsWire hexceeds]
  · have hsum := hlate
    rw [UInt64.lt_iff_toNat_lt, toNat_room] at hsum
    have hcarry := d.toNat_carry
    have hwords : (d.sec + d.carry).toNat = d.sec.toNat + d.carry.toNat := toNat_sum (by omega)
    rw [if_neg hlate, exactSum?_of_toNat_add hwords, Option.some_inj, ← UInt64.toNat_inj, hwords]
    by_cases hexceeds : d.exceedsWire = true
    -- The nanoseconds alone fill the wire, and there are no seconds.
    · rw [clamp_of_exceedsWire hexceeds, toNat_wireSecondsMax]
      rw [exceedsWire_iff] at hexceeds
      omega
    · rw [clamp_of_not_exceedsWire hexceeds, hwords]

theorem exactNanoseconds?_eq (d : Duration) : d.exactNanoseconds? = some d.clamp.nsec := by
  have hfraction : exactDifference? nanosecondsPerSecond 1 = some (nanosecondsPerSecond - 1) :=
    exactDifference?_of_le (by decide)
  have hproduct : exactProduct? d.carry nanosecondsPerSecond =
      some (d.carry * nanosecondsPerSecond) :=
    exactProduct?_of_toNat_mul d.toNat_carried
  have hrest : exactDifference? d.nsec (d.carry * nanosecondsPerSecond) =
      some (d.nsec - d.carry * nanosecondsPerSecond) :=
    exactDifference?_of_le d.carried_le_nsec
  by_cases hexceeds : d.exceedsWire = true
  · rw [exactNanoseconds?, if_pos hexceeds, clamp_of_exceedsWire hexceeds, hfraction]
  · rw [exactNanoseconds?, if_neg hexceeds, clamp_of_not_exceedsWire hexceeds, hproduct,
      Option.bind_eq_bind, Option.bind_some, hrest]

/-- No operation of `clamp` wraps. -/
theorem clampExactly?_eq_clamp (d : Duration) : d.clampExactly? = some d.clamp := by
  rw [clampExactly?, exactSeconds?_eq, exactNanoseconds?_eq]
  rfl

/-! ## The clamp as saturation -/

/-- Clamping gives the one duration with less than a second in its nanoseconds that stands
for the given span or, if that is longer, for the longest span of the wire.  So the seconds
fit, a clamped duration is left as it is, longer spans are not clamped to shorter ones, and
no operation on 64-bit words wraps. -/
theorem clamp_saturates (d : Duration) :
    (∀ e : Duration, e = d.clamp ↔ e.Carried ∧ e.nanoseconds = min d.nanoseconds wireSpanMax) ∧
      d.clamp.sec ≤ wireSecondsMax ∧
      d.clamp.clamp = d.clamp ∧
      (∀ e : Duration, d.nanoseconds ≤ e.nanoseconds →
        d.clamp ≤ e.clamp ∧ d.clamp.nanoseconds ≤ e.clamp.nanoseconds) ∧
      d.clampExactly? = some d.clamp := by
  refine ⟨fun e => eq_clamp_iff, d.sec_clamp_le, d.clamp_clamp, fun e hspan => ?_,
    d.clampExactly?_eq_clamp⟩
  have hle : d.clamp ≤ e.clamp := clamp_le_clamp hspan
  exact ⟨hle, (d.carried_clamp.le_iff e.carried_clamp).mp hle⟩

/-- Two seconds stand in the nanoseconds of one duration, and too many in the other's. -/
theorem clamp_secondsInNanoseconds :
    (⟨1, 2500000000⟩ : Duration).clamp = ⟨3, 500000000⟩ ∧
      (⟨1, 2500000000⟩ : Duration).nanoseconds ≤
        (⟨0, 18446744073709551615⟩ : Duration).nanoseconds ∧
      (⟨1, 2500000000⟩ : Duration).clamp ≤ (⟨0, 18446744073709551615⟩ : Duration).clamp := by
  obtain ⟨hclamp, -, -, hmono, -⟩ := clamp_saturates ⟨1, 2500000000⟩
  have hspan : (⟨1, 2500000000⟩ : Duration).nanoseconds ≤
      (⟨0, 18446744073709551615⟩ : Duration).nanoseconds := by decide
  have hvalue : (⟨3, 500000000⟩ : Duration) = (⟨1, 2500000000⟩ : Duration).clamp :=
    (hclamp _).mpr (by decide)
  exact ⟨hvalue.symm, hspan, (hmono _ hspan).1⟩

end DiscoveryGraph.Duration
