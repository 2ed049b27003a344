import DiscoveryGraph.Proofs.Duration
import DiscoveryGraph.Qos.Resolution
import Mathlib.Data.Set.Insert
import Mathlib.Order.BooleanAlgebra.Set
import Mathlib.Order.Bounds.Basic
import Mathlib.Order.MinMax

/-!
# The longest and the shortest of the specified durations

A choice passes over the durations that are unspecified and folds the others by
`max`, or by `min` from the infinite duration on.  What comes out is the greatest
of the specified durations, or the least of them and the infinite one, and it is
unspecified only where nothing is specified.  A set has one such duration, and so
it does not matter in which order the durations are met, nor how often.
-/

namespace DiscoveryGraph

/-! ## Extremes of a set of durations -/

namespace Duration

variable {s : Set Duration} {d d' : Duration}

/-- The longest of the specified durations, and unspecified if there is none. -/
def IsLongestOf (s : Set Duration) (d : Duration) : Prop :=
  IsGreatest (s \ {.unspecified}) d ∨ s \ {.unspecified} = ∅ ∧ d = .unspecified

/-- The shortest of the specified durations and the infinite one, and unspecified
if no duration is specified. -/
def IsShortestOf (s : Set Duration) (d : Duration) : Prop :=
  ((s \ {.unspecified}).Nonempty ∧ IsLeast (insert .infinite (s \ {.unspecified})) d) ∨
    s \ {.unspecified} = ∅ ∧ d = .unspecified

theorem IsLongestOf.unique (h : IsLongestOf s d) (h' : IsLongestOf s d') : d = d' := by
  rcases h with hgreatest | ⟨hempty, rfl⟩ <;> rcases h' with hgreatest' | ⟨hempty', rfl⟩
  · exact hgreatest.unique hgreatest'
  · exact absurd hempty' hgreatest.nonempty.ne_empty
  · exact absurd hempty hgreatest'.nonempty.ne_empty
  · rfl

theorem IsShortestOf.unique (h : IsShortestOf s d) (h' : IsShortestOf s d') : d = d' := by
  rcases h with ⟨hne, hleast⟩ | ⟨hempty, rfl⟩ <;>
    rcases h' with ⟨hne', hleast'⟩ | ⟨hempty', rfl⟩
  · exact hleast.unique hleast'
  · exact absurd hempty' hne.ne_empty
  · exact absurd hempty hne'.ne_empty
  · rfl

theorem IsLongestOf.mem (h : IsLongestOf s d) (hd : d ≠ .unspecified) : d ∈ s := by
  rcases h with hgreatest | ⟨-, hunspecified⟩
  · exact hgreatest.1.1
  · exact absurd hunspecified hd

theorem IsShortestOf.mem (h : IsShortestOf s d) (hd : d ≠ .unspecified)
    (hinfinite : d ≠ .infinite) : d ∈ s := by
  rcases h with ⟨-, hleast⟩ | ⟨-, hunspecified⟩
  · rcases hleast.1 with heq | hmem
    · exact absurd heq hinfinite
    · exact hmem.1
  · exact absurd hunspecified hd

end Duration

/-! ## What the folds compute -/

namespace Choice

variable {d bound : Duration} {ds ds' : List Duration}

theorem mem_specified_iff : d ∈ specified ds ↔ d ∈ ds ∧ d ≠ .unspecified := by
  simp [specified]

theorem setOf_mem_diff_unspecified (ds : List Duration) :
    {d | d ∈ ds} \ {.unspecified} = {d | d ∈ specified ds} :=
  Set.ext fun _ => mem_specified_iff.symm

/-- An operation that returns one of its arguments folds a list to one of its
values or to the one it starts from. -/
theorem foldl_mem_cons {op : Duration → Duration → Duration}
    (hop : ∀ a b, op a b = a ∨ op a b = b) (ds : List Duration) (d : Duration) :
    ds.foldl op d ∈ d :: ds := by
  induction ds generalizing d with
  | nil => exact List.mem_singleton_self d
  | cons e ds ih =>
      rw [List.foldl_cons]
      rcases List.mem_cons.mp (ih (op d e)) with heq | hmem
      · rw [heq, List.mem_cons, List.mem_cons]
        exact (hop d e).imp_right .inl
      · exact List.mem_cons_of_mem d (List.mem_cons_of_mem e hmem)

/-! ### The longest -/

theorem foldl_max_le_iff (ds : List Duration) (d bound : Duration) :
    ds.foldl max d ≤ bound ↔ d ≤ bound ∧ ∀ e ∈ ds, e ≤ bound := by
  induction ds generalizing d with
  | nil => simp
  | cons e ds ih => simp [ih, and_assoc]

theorem longest_le_iff : longest ds ≤ bound ↔ ∀ d ∈ ds, d ≤ bound := by
  rw [longest, specified, foldl_max_le_iff]
  constructor
  · rintro ⟨-, hle⟩ d hd
    by_cases h : d = .unspecified
    · rw [h]
      exact Duration.unspecified_le bound
    · exact hle d (List.mem_filter.mpr ⟨hd, by simpa using h⟩)
  · intro hle
    exact ⟨Duration.unspecified_le bound, fun d hd => hle d (List.mem_filter.mp hd).1⟩

theorem le_longest (hd : d ∈ ds) : d ≤ longest ds :=
  longest_le_iff.mp (le_refl (longest ds)) d hd

theorem longest_eq_unspecified_iff :
    longest ds = .unspecified ↔ ∀ d ∈ ds, d = .unspecified := by
  rw [← Duration.le_unspecified_iff, longest_le_iff]
  simp only [Duration.le_unspecified_iff]

theorem longest_mem_specified (hlongest : longest ds ≠ .unspecified) :
    longest ds ∈ specified ds :=
  (List.mem_cons.mp (foldl_mem_cons max_choice (specified ds) .unspecified)).resolve_left
    hlongest

theorem isLongestOf_longest (ds : List Duration) :
    Duration.IsLongestOf {d | d ∈ ds} (longest ds) := by
  by_cases hlongest : longest ds = .unspecified
  · refine .inr ⟨?_, hlongest⟩
    rw [Set.sdiff_eq_empty]
    exact longest_eq_unspecified_iff.mp hlongest
  · refine .inl ⟨mem_specified_iff.mp (longest_mem_specified hlongest), ?_⟩
    rintro d ⟨hd, -⟩
    exact le_longest hd

theorem longest_eq_of_mem_iff (hsame : ∀ d, d ∈ ds ↔ d ∈ ds') : longest ds = longest ds' := by
  have hset : {d | d ∈ ds} = {d | d ∈ ds'} := Set.ext hsame
  have hlongest := isLongestOf_longest ds
  rw [hset] at hlongest
  exact hlongest.unique (isLongestOf_longest ds')

/-! ### The shortest -/

theorem le_foldl_min_iff (ds : List Duration) (d bound : Duration) :
    bound ≤ ds.foldl min d ↔ bound ≤ d ∧ ∀ e ∈ ds, bound ≤ e := by
  induction ds generalizing d with
  | nil => simp
  | cons e ds ih => simp [ih, and_assoc]

theorem shortest_eq_foldl (hd : d ∈ specified ds) :
    shortest ds = (specified ds).foldl min .infinite := by
  rw [shortest]
  cases hds : specified ds with
  | nil =>
      rw [hds] at hd
      contradiction
  | cons e rest => rfl

theorem le_shortest_iff (hd : d ∈ specified ds) :
    bound ≤ shortest ds ↔ bound ≤ .infinite ∧ ∀ e ∈ specified ds, bound ≤ e := by
  rw [shortest_eq_foldl hd, le_foldl_min_iff]

theorem shortest_le_infinite (hd : d ∈ specified ds) : shortest ds ≤ .infinite :=
  ((le_shortest_iff hd).mp (le_refl (shortest ds))).1

theorem shortest_le (hd : d ∈ specified ds) : shortest ds ≤ d :=
  ((le_shortest_iff hd).mp (le_refl (shortest ds))).2 d hd

theorem shortest_eq_infinite_or_mem (hd : d ∈ specified ds) :
    shortest ds = .infinite ∨ shortest ds ∈ specified ds := by
  rw [shortest_eq_foldl hd]
  exact List.mem_cons.mp (foldl_mem_cons min_choice (specified ds) .infinite)

/-- The fold starts from a duration that is specified, and so the shortest one
is. -/
theorem shortest_ne_unspecified (hd : d ∈ specified ds) : shortest ds ≠ .unspecified := by
  rcases shortest_eq_infinite_or_mem hd with hinfinite | hmem
  · rw [hinfinite]
    decide
  · exact (mem_specified_iff.mp hmem).2

theorem isShortestOf_shortest (ds : List Duration) :
    Duration.IsShortestOf {d | d ∈ ds} (shortest ds) := by
  rw [Duration.IsShortestOf, setOf_mem_diff_unspecified]
  cases hds : specified ds with
  | nil => exact .inr ⟨by simp, by rw [shortest, hds]⟩
  | cons e rest =>
      have he : e ∈ specified ds := by simp [hds]
      rw [← hds]
      refine .inl ⟨⟨e, he⟩, shortest_eq_infinite_or_mem he, ?_⟩
      rintro d (rfl | hd)
      · exact shortest_le_infinite he
      · exact shortest_le hd

theorem shortest_eq_of_mem_iff (hsame : ∀ d, d ∈ ds ↔ d ∈ ds') :
    shortest ds = shortest ds' := by
  have hset : {d | d ∈ ds} = {d | d ∈ ds'} := Set.ext hsame
  have hshortest := isShortestOf_shortest ds
  rw [hset] at hshortest
  exact hshortest.unique (isShortestOf_shortest ds')

end Choice

end DiscoveryGraph
