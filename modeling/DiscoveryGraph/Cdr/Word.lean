/-!
# Little-endian words

Counts and lengths are words of four bytes, the least significant first. A word
starts at an offset that is a multiple of four.
-/

namespace DiscoveryGraph.Cdr.Word

/-- The number of bytes of a word, which is also its alignment. -/
abbrev size : Nat := 4

/-- The number of values of a word. -/
abbrev range : Nat := 4294967296

/-- The four bytes of a word, least significant first. -/
def encode (word : UInt32) : List UInt8 :=
  [word.toUInt8, (word >>> 8).toUInt8, (word >>> 16).toUInt8, (word >>> 24).toUInt8]

/-- The number that bytes write, least significant first. -/
def decode (bytes : List UInt8) : Nat :=
  bytes.foldr (fun b n => b.toNat + 256 * n) 0

@[simp]
theorem length_encode (word : UInt32) : (encode word).length = size := rfl

/-- A word is read back as the number it writes. -/
theorem decode_encode (word : UInt32) : decode (encode word) = word.toNat := by
  have h := word.toNat_lt
  simp [decode, encode, Nat.shiftRight_eq_div_pow]
  omega

end DiscoveryGraph.Cdr.Word
