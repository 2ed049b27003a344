import DiscoveryGraph.Text.Utf8
import Mathlib.Data.List.Basic
import Mathlib.Tactic.SplitIfs

/-!
# The bytes of UTF-8 text

The written form of a text is the concatenation of the forms of its characters.  An ASCII
character is written as one byte, and that byte occurs in the form of no other character.
So whether a text can be followed by an ASCII character that is to end it is seen from its
characters.  Lossy reading loses nothing of a text that was written, and a text without
U+FFFD is what lossy reading makes of its own bytes only.
-/

namespace DiscoveryGraph.Utf8

theorem encode_eq_flatMap (s : String) :
    encode s = s.toList.flatMap String.utf8EncodeChar := by
  rw [encode, ← String.utf8Encode_toList, List.utf8Encode]
  simp [List.data_toByteArray]

theorem encode_append (s t : String) : encode (s ++ t) = encode s ++ encode t := by
  simp only [encode_eq_flatMap, String.toList_append, List.flatMap_append]

theorem length_encode (s : String) : (encode s).length = s.utf8ByteSize := rfl

theorem encode_eq_nil_iff {s : String} : encode s = [] ↔ s = "" := by
  rw [← List.length_eq_zero_iff, length_encode, String.utf8ByteSize_eq_zero_iff]

/-! ## ASCII characters -/

theorem ofNat_eq_ofNat_iff {m n : Nat} (hm : m < 256) (hn : n < 256) :
    UInt8.ofNat m = UInt8.ofNat n ↔ m = n := by
  rw [← UInt8.toNat_inj, UInt8.toNat_ofNat', UInt8.toNat_ofNat']
  omega

/-- Every byte of a form with two or more bytes has its high bit set. -/
theorem ofNat_mem_utf8EncodeChar_iff {n : Nat} (hn : n < 128) (c : Char) :
    UInt8.ofNat n ∈ String.utf8EncodeChar c ↔ c.toNat = n := by
  have hvalue : c.toNat = c.val.toNat := rfl
  rw [hvalue]
  unfold String.utf8EncodeChar
  simp only
  split_ifs
  · rw [List.mem_singleton, ofNat_eq_ofNat_iff (by omega) (by omega), eq_comm]
  all_goals
    simp (disch := omega) only [List.mem_cons, List.not_mem_nil, ofNat_eq_ofNat_iff, or_false]
    omega

theorem ascii_mem_encode_iff {a : Char} (ha : a.toNat < 128) (s : String) :
    UInt8.ofNat a.toNat ∈ encode s ↔ a ∈ s.toList := by
  simp only [encode_eq_flatMap, List.mem_flatMap, ofNat_mem_utf8EncodeChar_iff ha,
    Char.toNat_inj, exists_eq_right]

/-- A text has a zero byte exactly when it has the character U+0000. -/
theorem zero_mem_encode_iff (s : String) : 0 ∈ encode s ↔ '\x00' ∈ s.toList := by
  have hascii : '\x00'.toNat < 128 := by decide
  exact ascii_mem_encode_iff hascii s

/-- Every byte of the text is that of an ASCII character. -/
def Ascii (s : String) : Prop := ∀ b ∈ encode s, b < 128

instance (s : String) : Decidable (Ascii s) := List.decidableBAll (· < 128) (encode s)

theorem utf8Size_eq_one {c : Char} (hc : ∀ b ∈ String.utf8EncodeChar c, b < 128) :
    c.utf8Size = 1 := by
  have hlead := hc ((String.utf8EncodeChar c).head String.utf8EncodeChar_ne_nil)
    (List.head_mem _)
  rw [Char.utf8Size_eq_one_iff, UInt32.le_iff_toNat_le]
  revert hlead
  unfold String.utf8EncodeChar
  simp only
  split_ifs with hvalue
  · intro
    exact hvalue
  -- The lead byte of a longer form is at least 192.
  all_goals
    simp only [List.head_cons, UInt8.lt_iff_toNat_lt, UInt8.toNat_ofNat', UInt8.reduceToNat,
      UInt32.reduceToNat]
    omega

theorem Ascii.utf8Size_eq_one {s : String} (hs : Ascii s) :
    ∀ c ∈ s.toList, c.utf8Size = 1 := by
  intro c hc
  apply Utf8.utf8Size_eq_one
  intro b hb
  rw [Ascii, encode_eq_flatMap] at hs
  exact hs b (List.mem_flatMap.mpr ⟨c, hc, hb⟩)

theorem Ascii.encode_ofList_take {s : String} (hs : Ascii s) (n : Nat) :
    encode (String.ofList (s.toList.take n)) = (encode s).take n := by
  have hbytes : ∀ cs : List Char, (∀ c ∈ cs, c.utf8Size = 1) →
      cs.flatMap String.utf8EncodeChar = cs.map fun c => c.val.toUInt8 := by
    intro cs hcs
    rw [List.map_eq_flatMap]
    exact List.flatMap_congr fun c hc => String.utf8EncodeChar_eq_singleton (hcs c hc)
  rw [encode_eq_flatMap, encode_eq_flatMap, String.toList_ofList,
    hbytes _ fun c hc => hs.utf8Size_eq_one c (List.mem_of_mem_take hc),
    hbytes _ hs.utf8Size_eq_one, List.map_take]

/-! ## Lossy reading -/

theorem decodeChar?_utf8EncodeChar_append (c : Char) (bytes : List UInt8) :
    decodeChar? (String.utf8EncodeChar c ++ bytes) = some c := by
  rw [decodeChar?, List.toByteArray_append]
  exact ByteArray.utf8DecodeChar?_utf8EncodeChar_append

theorem decodeLossyChars_flatMap (cs : List Char) :
    decodeLossyChars (cs.flatMap String.utf8EncodeChar) = cs := by
  induction cs with
  | nil => rw [List.flatMap_nil, decodeLossyChars]
  | cons c cs ih =>
      have hne : String.utf8EncodeChar c ≠ [] := String.utf8EncodeChar_ne_nil
      obtain ⟨lead, tail, hform⟩ := List.exists_cons_of_ne_nil hne
      have hlength : c.utf8Size - 1 = tail.length := by
        rw [← String.length_utf8EncodeChar, hform, List.length_cons, Nat.add_sub_cancel]
      have hchar := decodeChar?_utf8EncodeChar_append c (cs.flatMap String.utf8EncodeChar)
      rw [hform, List.cons_append] at hchar
      rw [List.flatMap_cons, hform, List.cons_append, decodeLossyChars, hchar]
      simp only [hlength, List.drop_left, ih]

theorem decodeLossy_encode (s : String) : decodeLossy (encode s) = s := by
  rw [decodeLossy, encode_eq_flatMap, decodeLossyChars_flatMap, String.ofList_toList]

theorem exists_append_of_decodeChar? {bytes : List UInt8} {c : Char}
    (h : decodeChar? bytes = some c) : ∃ rest, bytes = String.utf8EncodeChar c ++ rest := by
  obtain ⟨rest, hbytes⟩ := ByteArray.exists_of_utf8DecodeChar?_eq_some h
  have hlist := congrArg (fun b : ByteArray => b.data.toList) hbytes
  refine ⟨rest.data.toList, ?_⟩
  simpa [List.data_toByteArray] using hlist

theorem append_drop_of_decodeChar? {lead : UInt8} {rest : List UInt8} {c : Char}
    (h : decodeChar? (lead :: rest) = some c) :
    String.utf8EncodeChar c ++ rest.drop (c.utf8Size - 1) = lead :: rest := by
  obtain ⟨tail, hbytes⟩ := exists_append_of_decodeChar? h
  have htail : rest.drop (c.utf8Size - 1) = tail := by
    rw [← List.drop_succ_cons (a := lead), Nat.sub_add_cancel c.utf8Size_pos, hbytes,
      ← String.length_utf8EncodeChar, List.drop_left]
  rw [htail, hbytes]

theorem flatMap_decodeLossyChars {bytes : List UInt8}
    (h : '\uFFFD' ∉ decodeLossyChars bytes) :
    (decodeLossyChars bytes).flatMap String.utf8EncodeChar = bytes := by
  fun_induction decodeLossyChars bytes with
  | case1 => rfl
  | case2 lead rest c hc ih =>
      obtain ⟨-, hrest⟩ := List.ne_and_not_mem_of_not_mem_cons h
      rw [List.flatMap_cons, ih hrest, append_drop_of_decodeChar? hc]
  | case3 lead rest hnone ih => exact absurd List.mem_cons_self h

/-- Only ill-formed bytes and the bytes of U+FFFD itself are read as U+FFFD. -/
theorem encode_decodeLossy {bytes : List UInt8} (h : '\uFFFD' ∉ (decodeLossy bytes).toList) :
    encode (decodeLossy bytes) = bytes := by
  rw [decodeLossy, String.toList_ofList] at h
  rw [encode_eq_flatMap, decodeLossy, String.toList_ofList, flatMap_decodeLossyChars h]

theorem decodeLossy_eq_iff {bytes : List UInt8} {s : String} (hs : '\uFFFD' ∉ s.toList) :
    decodeLossy bytes = s ↔ bytes = encode s := by
  constructor
  · rintro rfl
    exact (encode_decodeLossy hs).symm
  · rintro rfl
    exact decodeLossy_encode s

end DiscoveryGraph.Utf8
