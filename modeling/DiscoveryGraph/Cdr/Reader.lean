import DiscoveryGraph.Cdr.Script
import DiscoveryGraph.Cdr.Word
import DiscoveryGraph.Text.Utf8

/-!
# Reading CDR

A `Reader` consumes a body from its start. A fault is reported at the offset
where the field began, before its alignment, and what was consumed before the
fault stays consumed.

A count is believed only if the rest of the body can hold that many elements of
the smallest size. Which counts are believed, and for which of them room can be
had, is a `LengthPolicy`, so that reading with and without the early check can
be compared.
-/

namespace DiscoveryGraph.Cdr

/-- A position in a body. -/
structure Reader where
  /-- The number of bytes consumed. -/
  offset : Nat
  /-- The bytes not yet consumed. -/
  unread : List UInt8
  deriving DecidableEq

namespace Reader

/-- The start of a body. -/
def ofBody (body : List UInt8) : Reader := ⟨0, body⟩

/-- The number of bytes not yet consumed. -/
def remaining (r : Reader) : Nat := r.unread.length

/-- Moves on by `count` bytes. -/
def advance (r : Reader) (count : Nat) : Reader :=
  ⟨r.offset + count, r.unread.drop count⟩

/-- The least multiple of `alignment` that is not below `offset`. -/
def aligned (offset alignment : Nat) : Nat :=
  (offset + alignment - 1) / alignment * alignment

end Reader

/-- What messages have lists of. -/
inductive Element
  | node
  | gid
  deriving DecidableEq, Repr

/-- What a reader does about announced counts. Each answer may depend on the count
and the number of unread bytes. -/
structure LengthPolicy where
  /-- Whether a count is believed, where no element is smaller than `size`. -/
  believes : (count size unread : Nat) → Bool
  /-- Whether room for that many elements can be had. -/
  grants : (element : Element) → (count unread : Nat) → Bool

namespace LengthPolicy

/-- Believes a count that the unread bytes can hold. -/
def bounded : LengthPolicy where
  believes count size unread := count * size ≤ unread
  grants _ _ _ := true

/-- Believes every count. -/
def unchecked : LengthPolicy where
  believes _ _ _ := true
  grants _ _ _ := true

end LengthPolicy

/-- An action that reads. -/
abbrev Read (value : Type) := Action Reader value

namespace Read

/-- Fails with a fault found at `offset`. -/
def refuse {value : Type} (offset : Nat) (fault : Fault) : Read value :=
  throw (.serialization offset fault)

/-- Moves on to the next multiple of `alignment`. -/
def align (alignment : Nat) : Read Unit := do
  if alignment ≤ 1 then return
  else
    let r ← get
    let count := Reader.aligned r.offset alignment - r.offset
    if count ≤ r.remaining then set (r.advance count)
    else refuse r.offset .endOfBuffer

theorem runFrom_align (alignment : Nat) (r : Reader) :
    (align alignment).runFrom r =
      if alignment ≤ 1 then (.ok (), r)
      else if Reader.aligned r.offset alignment - r.offset ≤ r.remaining then
        (.ok (), r.advance (Reader.aligned r.offset alignment - r.offset))
      else (.error (.serialization r.offset .endOfBuffer), r) := by
  simp [align, refuse]

/-- Reads `count` bytes. -/
def bytes (count : Nat) : Read (List UInt8) := do
  let r ← get
  if count ≤ r.remaining then
    set (r.advance count)
    return r.unread.take count
  else refuse r.offset .endOfBuffer

theorem runFrom_bytes (count : Nat) (r : Reader) :
    (bytes count).runFrom r =
      if count ≤ r.remaining then (.ok (r.unread.take count), r.advance count)
      else (.error (.serialization r.offset .endOfBuffer), r) := by
  simp [bytes, refuse, Except.map]

/-- Reads a word where the reader stands. -/
def unalignedWord : Read Nat := do
  return Word.decode (← bytes Word.size)

/-- Reads an aligned word. -/
def word : Read Nat := do
  align Word.size
  unalignedWord

/-- Reads a count of elements of at least `size` bytes each. -/
def count (policy : LengthPolicy) (size : Nat) : Read Nat := do
  let start := (← get).offset
  let n ← word
  if policy.believes n size (← get).remaining then return n
  else refuse start .excessiveCount

/-- Makes sure of room for `count` elements. -/
def reserve (policy : LengthPolicy) (element : Element) (count : Nat) : Read Unit := do
  if policy.grants element count (← get).remaining then return
  else throw .badAlloc

/-- Reads a text: a length that counts the terminator, the bytes and the
terminator. -/
def text (policy : LengthPolicy) : Read String := do
  let start := (← get).offset
  let length ← count policy 1
  if length = 0 then refuse start .noTerminatorRoom
  else
    let raw ← bytes length
    if raw.getLast? = some 0 then
      match Utf8.decode? raw.dropLast with
      | some s => return s
      | none => refuse start .illFormedText
    else refuse start .missingTerminator

/-- Reads `count` values one after another. -/
def times {value : Type} (read : Read value) : (count : Nat) → Read (List value)
  | 0 => return []
  | count + 1 => do
      let first ← read
      let rest ← times read count
      return first :: rest

/-- Reads a count and then that many elements, each of at least `size` bytes. -/
def sequence {value : Type} (policy : LengthPolicy) (element : Element) (size : Nat)
    (read : Read value) : Read (List value) := do
  let n ← count policy size
  reserve policy element n
  times read n

end Read

/-- A step of a script that reads. -/
inductive ReadStep
  | align (alignment : Nat)
  | bytes (count : Nat)
  | word
  | unalignedWord
  | count (size : Nat)
  | text
  deriving DecidableEq

/-- What a step of a script read. -/
inductive ReadValue
  | nothing
  | bytes (data : List UInt8)
  | number (n : Nat)
  | text (s : String)
  deriving DecidableEq

/-- What a step reads. -/
def ReadStep.perform : ReadStep → Read ReadValue
  | align alignment => do Read.align alignment; return .nothing
  | bytes n => return .bytes (← Read.bytes n)
  | word => return .number (← Read.word)
  | unalignedWord => return .number (← Read.unalignedWord)
  | count size => return .number (← Read.count .bounded size)
  | text => return .text (← Read.text .bounded)

end DiscoveryGraph.Cdr
