import DiscoveryGraph.Error

/-!
# Type hashes

A `TypeHash` names the structure of a message type: a version and thirty-two
bytes. Version zero means that no hash was given. The text of a hash is `RIHS`,
the version with at least two decimal digits, an underscore and the bytes in
lowercase hexadecimal. Reading takes exactly two decimal digits, not both
zero, and hexadecimal digits of either case.
-/

namespace DiscoveryGraph

/-- The number of bytes of a type hash. -/
abbrev typeHashSize : Nat := 32

/-- The hash of a message type. -/
structure TypeHash where
  /-- The version of the hashing scheme; zero means unset. -/
  version : UInt8
  /-- The bytes of the hash. -/
  value : List UInt8
  /-- A type hash has exactly `typeHashSize` bytes. -/
  length_value : value.length = typeHashSize
  deriving DecidableEq

namespace TypeHash

/-- No hash. -/
def unset : TypeHash where
  version := 0
  value := List.replicate typeHashSize 0
  length_value := by simp

instance : Inhabited TypeHash := ⟨unset⟩

/-- Whether no hash was given. -/
def isUnset (h : TypeHash) : Bool := h.version == 0

/-- The hash with the given version and bytes, if there are enough and not too
many of them. -/
def ofBytes? (version : UInt8) (value : List UInt8) : Option TypeHash :=
  if h : value.length = typeHashSize then some ⟨version, value, h⟩ else none

/-- A version with at least two decimal digits. -/
def versionDigits (version : UInt8) : List Char :=
  if version.toNat < 10 then '0' :: Nat.toDigits 10 version.toNat
  else Nat.toDigits 10 version.toNat

/-- The characters of the text of a hash. -/
def chars (h : TypeHash) : List Char :=
  ['R', 'I', 'H', 'S'] ++ versionDigits h.version ++ '_' :: Hex.encode h.value

/-- The text of a hash. -/
def text (h : TypeHash) : String := String.ofList h.chars

/-- The text of a hash marked as one, for diagnostics. -/
def labelled (h : TypeHash) : String :=
  if h.isUnset then "TypeHash(unset)" else "TypeHash(" ++ h.text ++ ")"

/-- The value of a decimal digit. -/
def decimalValue? (c : Char) : Option Nat :=
  if '0' ≤ c ∧ c ≤ '9' then some (c.toNat - '0'.toNat) else none

/-- The version that two decimal digits write, unless it is zero. -/
def version? (tens units : Char) : Option UInt8 := do
  let t ← decimalValue? tens
  let u ← decimalValue? units
  let v := 10 * t + u
  if v = 0 then none else some (UInt8.ofNat v)

/-- Reads the characters of the text of a hash. -/
def ofChars? : List Char → Option TypeHash
  | 'R' :: 'I' :: 'H' :: 'S' :: tens :: units :: '_' :: hex => do
      let version ← version? tens units
      let value ← Hex.decode? hex
      ofBytes? version value
  | _ => none

/-- Reads the text of a hash; any other text is refused. -/
def parse (s : String) : Except Error TypeHash :=
  match ofChars? s.toList with
  | some h => .ok h
  | none => .error (.invalidTypeHash s)

end TypeHash

end DiscoveryGraph
