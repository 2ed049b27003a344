/-!
# Bounded text

A `Reason` collects text in a buffer that keeps one byte of its capacity for a
terminator. Each text written is cut at the last character boundary that still
fits; what is cut off is lost without an error. An unbounded buffer keeps all.
-/

namespace DiscoveryGraph

/-- A text buffer of limited or unlimited capacity. -/
structure Reason where
  /-- The text kept so far. -/
  text : String
  /-- The size of the buffer in bytes, terminator included, if it is limited. -/
  capacity : Option Nat
  deriving DecidableEq, Repr

namespace Reason

/-- An empty buffer without a limit. -/
def unbounded : Reason := ⟨"", none⟩

/-- An empty buffer of `capacity` bytes. -/
def ofCapacity (capacity : Nat) : Reason := ⟨"", some capacity⟩

/-- The number of bytes that still fit, if there is a limit. -/
def room (r : Reason) : Option Nat :=
  r.capacity.map fun capacity => capacity - 1 - r.text.utf8ByteSize

/-- The longest beginning of a list of characters that has at most `room`
bytes. -/
def fitting (room : Nat) : List Char → List Char
  | [] => []
  | c :: cs =>
      if c.utf8Size ≤ room then c :: fitting (room - c.utf8Size) cs else []

/-- The longest beginning of `s` that has at most `room` bytes; without a limit
the whole of `s`. -/
def cut (s : String) : Option Nat → String
  | none => s
  | some room => String.ofList (fitting room s.toList)

/-- Appends as much of `s` as fits. Writing cannot fail: what does not fit is
dropped, and a cut at a character boundary always exists. -/
def write (r : Reason) (s : String) : Reason :=
  { r with text := r.text ++ cut s r.room }

/-- Appends several texts, each as far as it fits. -/
def writeAll (r : Reason) (texts : List String) : Reason :=
  texts.foldl write r

end Reason

end DiscoveryGraph
