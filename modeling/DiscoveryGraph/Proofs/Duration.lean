import DiscoveryGraph.Duration
import Mathlib.Order.BoundedOrder.Basic
import Mathlib.Order.Defs.LinearOrder

/-!
# The order of durations

Durations are linearly ordered, seconds first, and `Duration.unspecified` is the
least of them.  The instance below keeps the comparison, `max` and `min` of the
type, so that general facts about linear orders speak about those.
-/

namespace DiscoveryGraph.Duration

variable {a b : Duration}

theorem compare_eq (a b : Duration) :
    compare a b = (compare a.sec b.sec).then (compare a.nsec b.nsec) :=
  rfl

theorem ext_iff : a = b ↔ a.sec = b.sec ∧ a.nsec = b.nsec := by
  cases a
  cases b
  simp

theorem lt_iff : a < b ↔ a.sec < b.sec ∨ (a.sec = b.sec ∧ a.nsec < b.nsec) := by
  change compare a b = .lt ↔ _
  rw [compare_eq, Ordering.then_eq_lt, Std.compare_eq_lt, Std.compare_eq_lt,
    Std.compare_eq_iff_eq]

theorem le_iff : a ≤ b ↔ a.sec < b.sec ∨ (a.sec = b.sec ∧ a.nsec ≤ b.nsec) := by
  change (compare a b).isLE ↔ _
  rw [compare_eq, Ordering.isLE_then_iff_or, Std.compare_eq_lt, Std.isLE_compare,
    Std.compare_eq_iff_eq]

theorem compare_eq_eq_iff : compare a b = .eq ↔ a = b := by
  rw [compare_eq, Ordering.then_eq_eq, Std.compare_eq_iff_eq, Std.compare_eq_iff_eq,
    ext_iff]

instance : LinearOrder Duration where
  le_refl a := by simp [le_iff]
  le_trans a b c := by
    simp only [le_iff]
    grind
  lt_iff_le_not_ge a b := by
    simp only [le_iff, lt_iff]
    grind
  le_antisymm a b := by
    simp only [le_iff, ext_iff]
    grind
  le_total a b := by
    simp only [le_iff]
    grind
  toDecidableLE := inferInstance
  toDecidableEq := inferInstance
  toDecidableLT := inferInstance
  compare_eq_compareOfLessAndEq a b := by
    unfold compareOfLessAndEq
    by_cases hlt : a < b
    · rw [if_pos hlt]
      exact hlt
    · by_cases heq : a = b
      · rw [if_neg hlt, if_pos heq]
        exact compare_eq_eq_iff.mpr heq
      · rw [if_neg hlt, if_neg heq]
        cases h : compare a b with
        | lt => exact absurd h hlt
        | eq => exact absurd (compare_eq_eq_iff.mp h) heq
        | gt => rfl

theorem unspecified_le (a : Duration) : unspecified ≤ a := by
  rw [le_iff]
  simp only [unspecified]
  grind

instance : OrderBot Duration where
  bot := unspecified
  bot_le := unspecified_le

theorem le_unspecified_iff : a ≤ unspecified ↔ a = unspecified :=
  le_bot_iff

theorem unspecified_lt_iff : unspecified < a ↔ a ≠ unspecified :=
  bot_lt_iff_ne_bot

end DiscoveryGraph.Duration
