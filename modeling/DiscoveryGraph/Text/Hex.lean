/-!
# Hexadecimal text of bytes

A byte has two written forms: exactly two lowercase digits, or as few digits as
it needs. Reading takes pairs of digits of either case. Nothing here knows what
the bytes mean.
-/

namespace DiscoveryGraph.Hex

/-- A byte as exactly two lowercase digits. -/
def pair (b : UInt8) : List Char :=
  [Nat.digitChar (b.toNat / 16), Nat.digitChar (b.toNat % 16)]

/-- A byte without a leading zero: one digit below sixteen, else two. -/
def short (b : UInt8) : List Char :=
  if b.toNat < 16 then [Nat.digitChar b.toNat] else pair b

/-- Bytes as consecutive pairs of digits. -/
def encode (bytes : List UInt8) : List Char :=
  bytes.flatMap pair

/-- The value of an ASCII hexadecimal digit of either case. -/
def digitValue? (c : Char) : Option Nat :=
  if '0' ≤ c ∧ c ≤ '9' then some (c.toNat - '0'.toNat)
  else if 'a' ≤ c ∧ c ≤ 'f' then some (c.toNat - 'a'.toNat + 10)
  else if 'A' ≤ c ∧ c ≤ 'F' then some (c.toNat - 'A'.toNat + 10)
  else none

/-- The byte that two digits write, the high digit first. -/
def byte? (high low : Char) : Option UInt8 := do
  let h ← digitValue? high
  let l ← digitValue? low
  return UInt8.ofNat (16 * h + l)

/-- Reads consecutive pairs of digits; an odd count or a foreign character is
refused. -/
def decode? : List Char → Option (List UInt8)
  | [] => some []
  | [_] => none
  | high :: low :: rest => do
      let b ← byte? high low
      let bytes ← decode? rest
      return b :: bytes

@[simp]
theorem encode_nil : encode [] = [] := rfl

@[simp]
theorem encode_cons (b : UInt8) (bytes : List UInt8) :
    encode (b :: bytes) = pair b ++ encode bytes := rfl

end DiscoveryGraph.Hex
