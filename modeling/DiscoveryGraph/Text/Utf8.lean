/-!
# UTF-8 bytes of text

Text is written as its UTF-8 bytes. Reading is strict, where ill-formed bytes
give no text at all, or lossy, where each ill-formed part is replaced by one
U+FFFD. An ill-formed part is as long as a correct sequence could have begun:
the longest start of a well-formed sequence, and at least one byte.
-/

namespace DiscoveryGraph.Utf8

/-- The UTF-8 bytes of a text. -/
def encode (s : String) : List UInt8 := s.toByteArray.data.toList

/-- The text that the bytes write, if they are well-formed UTF-8. -/
def decode? (bytes : List UInt8) : Option String :=
  String.fromUTF8? bytes.toByteArray

/-- The character that the bytes begin with, if they begin well-formed. -/
def decodeChar? (bytes : List UInt8) : Option Char :=
  bytes.toByteArray.utf8DecodeChar? 0

/-- The second bytes that may follow a lead byte of a sequence of three or four
bytes. The narrow ranges exclude overlong forms, surrogates and values above
U+10FFFF. -/
def secondByteFits (lead second : UInt8) : Bool :=
  if lead = 0xE0 then 0xA0 ≤ second && second ≤ 0xBF
  else if lead = 0xED then 0x80 ≤ second && second ≤ 0x9F
  else if lead = 0xF0 then 0x90 ≤ second && second ≤ 0xBF
  else if lead = 0xF4 then 0x80 ≤ second && second ≤ 0x8F
  else 0x80 ≤ second && second ≤ 0xBF

/-- Whether a byte continues a sequence. -/
def continues (b : UInt8) : Bool := 0x80 ≤ b && b ≤ 0xBF

/-- How many bytes after `lead` belong to the same ill-formed part, given that
no well-formed character begins at `lead`. -/
def illFormedTail (lead : UInt8) : List UInt8 → Nat
  | [] => 0
  | second :: rest =>
      if 0xE0 ≤ lead ∧ lead ≤ 0xF4 ∧ secondByteFits lead second then
        match rest with
        | [] => 1
        | third :: _ => if 0xF0 ≤ lead ∧ continues third then 2 else 1
      else 0

/-- Reads bytes as characters, with one U+FFFD for each ill-formed part. -/
def decodeLossyChars : List UInt8 → List Char
  | [] => []
  | lead :: rest =>
      match decodeChar? (lead :: rest) with
      | some c => c :: decodeLossyChars (rest.drop (c.utf8Size - 1))
      | none => '\uFFFD' :: decodeLossyChars (rest.drop (illFormedTail lead rest))
termination_by bytes => bytes.length

/-- The text that the bytes write, with one U+FFFD for each ill-formed part. -/
def decodeLossy (bytes : List UInt8) : String :=
  String.ofList (decodeLossyChars bytes)

theorem decode?_encode (s : String) : decode? (encode s) = some s := by
  have h : (encode s).toByteArray = s.toByteArray := by
    apply ByteArray.ext
    simp [encode, List.data_toByteArray]
  unfold decode? String.fromUTF8?
  rw [h, dif_pos s.isValidUTF8]
  rfl

theorem encode_of_decode? {bytes : List UInt8} {s : String}
    (h : decode? bytes = some s) : encode s = bytes := by
  unfold decode? String.fromUTF8? at h
  split at h
  · cases h
    exact List.toList_data_toByteArray
  · cases h

/-- Strict reading accepts exactly the written form of a text. -/
theorem decode?_eq_some_iff {bytes : List UInt8} {s : String} :
    decode? bytes = some s ↔ bytes = encode s :=
  ⟨fun h => (encode_of_decode? h).symm, fun h => h ▸ decode?_encode s⟩

end DiscoveryGraph.Utf8
