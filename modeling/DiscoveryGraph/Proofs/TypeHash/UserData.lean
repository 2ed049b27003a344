import DiscoveryGraph.Proofs.TypeHash.Pairs
import DiscoveryGraph.Proofs.TypeHash.Text

/-!
# Type hashes that travel in user data

The token of a type hash is one pair: its key has no equals sign, and neither the key nor
the text of the hash has a semicolon.  So the text arrives as it was written, and whether
the hash is read back is up to the text alone.
-/

namespace DiscoveryGraph.UserData

/-! ## The token of a type hash -/

theorem not_mem_encode_typeHashKey :
    separator ∉ Utf8.encode typeHashKey ∧ equals ∉ Utf8.encode typeHashKey := by
  decide

theorem separator_not_mem_encode_text (h : TypeHash) : separator ∉ Utf8.encode h.text := by
  have hascii : ';'.toNat < 128 := by decide
  have hchar : ';' ∉ h.text.toList := by
    rw [TypeHash.text, String.toList_ofList]
    exact h.semicolon_not_mem_chars
  exact mt (Utf8.ascii_mem_encode_iff hascii h.text).mp hchar

theorem encode_ofTypeHash {h : TypeHash} (hset : h.isUnset = false) :
    Utf8.encode (ofTypeHash h) =
      (Utf8.encode typeHashKey ++ equals :: Utf8.encode h.text) ++ [separator] := by
  have hunset : ¬ h.isUnset = true := by simp [hset]
  have hequals : Utf8.encode "=" = [equals] := by decide
  have hseparator : Utf8.encode ";" = [separator] := by decide
  rw [ofTypeHash, if_neg hunset]
  simp only [Utf8.encode_append, hequals, hseparator, List.append_assoc, List.singleton_append]

theorem pairs_ofTypeHash {h : TypeHash} (hset : h.isUnset = false) :
    pairs (Utf8.encode (ofTypeHash h)) = [(Utf8.encode typeHashKey, Utf8.encode h.text)] := by
  obtain ⟨hkey, hequals⟩ := not_mem_encode_typeHashKey
  have htoken : separator ∉ Utf8.encode typeHashKey ++ equals :: Utf8.encode h.text := by
    have hmark : separator ≠ equals := by decide
    simp [hkey, hmark, separator_not_mem_encode_text h]
  have hne : Utf8.encode typeHashKey ≠ [] := by decide
  rw [encode_ofTypeHash hset, pairs_append_separator htoken, pair?_append_equals hequals hne]
  rfl

/-- The text of a set hash arrives as it was written. -/
theorem typeHash_encode_ofTypeHash {h : TypeHash} (hset : h.isUnset = false) :
    typeHash (Utf8.encode (ofTypeHash h)) = TypeHash.parse h.text := by
  have hparse : parse (Utf8.encode (ofTypeHash h)) =
      (∅ : Map).insert typeHashKey (Utf8.encode h.text) := by
    rw [parse, pairs_ofTypeHash hset, List.foldl_cons, List.foldl_nil, enter,
      Utf8.decodeLossy_encode]
  rw [typeHash, hparse, Std.ExtTreeMap.getElem?_insert_self]
  simp only [Utf8.decode?_encode]

/-- A set hash is read back from its text, and from the user data that announce it, exactly
if its version has two digits.  Otherwise both refuse the text. -/
theorem read_written_typeHash (h : TypeHash) (hset : h.isUnset = false) :
    let read : Except Error TypeHash :=
      if h.version < 100 then .ok h else .error (.invalidTypeHash h.text)
    typeHash (Utf8.encode (ofTypeHash h)) = read ∧ TypeHash.parse h.text = read := by
  intro read
  have htext : TypeHash.parse h.text = read := by
    by_cases hversion : h.version < 100
    · exact (TypeHash.parse_text_of_lt hset (UInt8.lt_iff_toNat_lt.mp hversion)).trans
        (if_pos hversion).symm
    · have hthree : 100 ≤ h.version.toNat :=
        Nat.le_of_not_lt fun hlt => hversion (UInt8.lt_iff_toNat_lt.mpr hlt)
      exact (TypeHash.parse_text_of_le hthree).trans (if_neg hversion).symm
  exact ⟨(typeHash_encode_ofTypeHash hset).trans htext, htext⟩

/-- The hash of a version whose bytes are all the same. -/
def uniformHash (version b : UInt8) : TypeHash where
  version := version
  value := List.replicate typeHashSize b
  length_value := List.length_replicate

theorem read_written_uniformHash :
    (uniformHash 99 0xAB).isUnset = false ∧
      typeHash (Utf8.encode (ofTypeHash (uniformHash 99 0xAB))) = .ok (uniformHash 99 0xAB) ∧
      TypeHash.parse (uniformHash 99 0xAB).text = .ok (uniformHash 99 0xAB) :=
  ⟨rfl, read_written_typeHash (uniformHash 99 0xAB) rfl⟩

theorem not_forall_read_written_typeHash :
    ¬ ∀ h : TypeHash, h.isUnset = false →
      typeHash (Utf8.encode (ofTypeHash h)) = .ok h ∧ TypeHash.parse h.text = .ok h := by
  intro hclaim
  obtain ⟨-, hread⟩ := hclaim (uniformHash 100 0) rfl
  rw [TypeHash.parse_text_of_le (by decide)] at hread
  contradiction

end DiscoveryGraph.UserData
