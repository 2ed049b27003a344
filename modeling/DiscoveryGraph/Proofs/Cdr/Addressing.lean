import DiscoveryGraph.Cdr.Writer

/-!
# Addresses

Buffers are measured and indexed by 64-bit addresses.  The operations of this module give
the exact result and nothing where a sum or a product is no address, where a difference is
negative, or where a slice is out of range, so that a computation in which nothing overflows
is one that always has a result.
-/

namespace DiscoveryGraph.Cdr

variable {a b start stop : Nat} {data : List UInt8}

/-- The number, if it is an address. -/
def address? (n : Nat) : Option Nat := if n < addressRange then some n else none

def sum? (a b : Nat) : Option Nat := address? (a + b)

def difference? (a b : Nat) : Option Nat := if b ≤ a then some (a - b) else none

def product? (a b : Nat) : Option Nat := address? (a * b)

/-- The product, or the largest address where that is less. -/
def saturatingProduct (a b : Nat) : Nat := min (a * b) (addressRange - 1)

/-- The bytes from `start` on and before `stop`, if there are as many. -/
def slice? (data : List UInt8) (start stop : Nat) : Option (List UInt8) :=
  if start ≤ stop ∧ stop ≤ data.length then some ((data.take stop).drop start) else none

theorem addressRange_eq : addressRange = 18446744073709551616 := rfl

theorem sum?_of_lt (h : a + b < addressRange) : sum? a b = some (a + b) :=
  if_pos h

theorem sum?_of_le (h : addressRange ≤ a + b) : sum? a b = none :=
  if_neg (Nat.not_lt.mpr h)

theorem difference?_of_le (h : b ≤ a) : difference? a b = some (a - b) :=
  if_pos h

theorem product?_of_lt (h : a * b < addressRange) : product? a b = some (a * b) :=
  if_pos h

theorem slice?_of_le (hle : start ≤ stop) (hstop : stop ≤ data.length) :
    slice? data start stop = some ((data.take stop).drop start) :=
  if_pos ⟨hle, hstop⟩

/-- A slice is the beginning of what follows the bytes before it. -/
theorem slice?_add {count : Nat} (h : start + count ≤ data.length) :
    slice? data start (start + count) = some ((data.drop start).take count) := by
  rw [slice?_of_le (Nat.le_add_right _ _) h, List.drop_take, Nat.add_sub_cancel_left]

end DiscoveryGraph.Cdr
