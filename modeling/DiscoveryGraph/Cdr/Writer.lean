import DiscoveryGraph.Cdr.Script
import DiscoveryGraph.Cdr.Word
import DiscoveryGraph.Text.Utf8

/-!
# Writing CDR

A `Writer` appends fields to a body that follows a fixed header. Words are
aligned to their size, counted from the start of the body, with zero bytes as
padding. A text is a length that counts a terminator, the bytes of the text and
the terminator. Every check comes before the first byte that a field writes.

Room is reserved before it is used. What can be reserved is up to the machine
and given as a `Memory`. The first reservation is for the header and a hint that
may be any 64-bit number; nobody has checked that their sum is an address.
-/

namespace DiscoveryGraph.Cdr

/-- Says for a number of bytes whether a buffer of that size can be had. -/
abbrev Memory := Nat → Bool

/-- The memory in which every buffer can be had. -/
def Memory.unlimited : Memory := fun _ => true

/-- The memory in which buffers below a limit can be had. -/
def Memory.below (limit : Nat) : Memory := fun bytes => bytes < limit

/-- The number of different 64-bit addresses. -/
abbrev addressRange : Nat := 18446744073709551616

/-- A machine of 64-bit addresses, on which a buffer cannot take an eighth of
all addresses or more. -/
def Memory.machine : Memory := .below (addressRange / 8)

/-- A message under construction. -/
structure Writer where
  /-- The bytes before the body, which do not count for alignment. -/
  header : List UInt8
  /-- The bytes of the fields written so far. -/
  body : List UInt8
  deriving DecidableEq

namespace Writer

/-- The number of bytes of the body. -/
def offset (w : Writer) : Nat := w.body.length

/-- The whole message. -/
def finish (w : Writer) : List UInt8 := w.header ++ w.body

/-- Starts a message after `header`, with room for `hint` more bytes. -/
def start (memory : Memory) (header : List UInt8) (hint : Nat) : Except Error Writer :=
  if memory (header.length + hint) then .ok ⟨header, []⟩
  else .error .badAlloc

/-- Starts a message in 64-bit arithmetic. There is no result, not even an error,
where the sum of the header and the hint is no address. -/
def start? (memory : Memory) (header : List UInt8) (hint : Nat) :
    Option (Except Error Writer) :=
  if header.length + hint < addressRange then some (start memory header hint) else none

theorem start_eq_ok_iff {memory : Memory} {header : List UInt8} {hint : Nat} {w : Writer} :
    start memory header hint = .ok w ↔
      memory (header.length + hint) = true ∧ w = ⟨header, []⟩ := by
  rw [start]
  split
  · next hroom => simp [hroom, eq_comm]
  · next hroom => simp [hroom]

/-- The number of padding bytes from `offset` to the next multiple of
`alignment`. -/
def padding (offset alignment : Nat) : Nat :=
  (alignment - offset % alignment) % alignment

end Writer

/-- An action that writes. -/
abbrev Write := Action Writer Unit

namespace Write

/-- Fails at the current offset. -/
def refuse (fault : Fault) : Write := do
  throw (.serialization (← get).offset fault)

/-- Makes sure of room for `count` more bytes. -/
def reserve (memory : Memory) (count : Nat) : Write := do
  if memory ((← get).finish.length + count) then return
  else throw .badAlloc

theorem runFrom_reserve (memory : Memory) (count : Nat) (w : Writer) :
    (reserve memory count).runFrom w =
      (if memory (w.finish.length + count) then .ok () else .error .badAlloc, w) := by
  by_cases h : memory (w.finish.length + count) <;> simp [reserve, h]

/-- Appends bytes as they are. -/
def bytes (memory : Memory) (data : List UInt8) : Write := do
  reserve memory data.length
  modify fun w => { w with body := w.body ++ data }

theorem runFrom_bytes (memory : Memory) (data : List UInt8) (w : Writer) :
    (bytes memory data).runFrom w =
      if memory (w.finish.length + data.length) then
        (.ok (), { w with body := w.body ++ data })
      else (.error .badAlloc, w) := by
  by_cases h : memory (w.finish.length + data.length) <;>
    simp [bytes, runFrom_reserve, h]

/-- Appends zeros up to the next multiple of `alignment`. -/
def align (memory : Memory) (alignment : Nat) : Write := do
  if alignment ≤ 1 then return
  else
    let count := Writer.padding (← get).offset alignment
    reserve memory count
    modify fun w => { w with body := w.body ++ List.replicate count 0 }

theorem runFrom_align (memory : Memory) (alignment : Nat) (w : Writer) :
    (align memory alignment).runFrom w =
      if alignment ≤ 1 then (.ok (), w)
      else
        (bytes memory
          (List.replicate (Writer.padding w.offset alignment) 0)).runFrom w := by
  by_cases h : alignment ≤ 1 <;> simp [align, bytes, h]

/-- Appends an aligned word. -/
def word (memory : Memory) (value : UInt32) : Write := do
  align memory Word.size
  bytes memory (Word.encode value)

/-- Appends a count of elements, which has to fit a word. -/
def count (memory : Memory) (n : Nat) : Write :=
  if n < Word.range then word memory (UInt32.ofNat n) else refuse .lengthOverflow

/-- Appends a text, which must not contain the terminator. -/
def text (memory : Memory) (s : String) : Write :=
  if (Utf8.encode s).contains 0 then refuse .embeddedTerminator
  else do
    count memory ((Utf8.encode s).length + 1)
    bytes memory (Utf8.encode s)
    bytes memory [0]

end Write

/-- A step of a script that writes. -/
inductive WriteStep
  | align (alignment : Nat)
  | bytes (data : List UInt8)
  | word (value : UInt32)
  | count (n : Nat)
  | text (s : String)
  deriving DecidableEq

/-- What a step writes. -/
def WriteStep.perform (memory : Memory) : WriteStep → Write
  | align alignment => Write.align memory alignment
  | bytes data => Write.bytes memory data
  | word value => Write.word memory value
  | count n => Write.count memory n
  | text s => Write.text memory s

end DiscoveryGraph.Cdr
