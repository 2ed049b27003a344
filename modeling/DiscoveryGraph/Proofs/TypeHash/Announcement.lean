import DiscoveryGraph.Proofs.TypeHash.Grammar
import DiscoveryGraph.Proofs.TypeHash.UserData

/-!
# The last announcement decides

A token announces a type hash if it begins with the key of type hashes and an equals sign.
No other token binds that key: lossy reading makes U+FFFD of what is no text, and the key
has none.  So the hash that is read from user data is up to their last announcement alone,
and a hash that is announced after any other tokens is read back unless it is announced anew.
-/

namespace DiscoveryGraph.UserData

variable {data token value raw p q : List UInt8} {before after : List (List UInt8)}
  {h : TypeHash}

/-- What a token begins with that announces a type hash. -/
def announcement : List UInt8 := Utf8.encode "typehash="

theorem announcement_eq : announcement = Utf8.encode typeHashKey ++ [equals] := by decide

theorem binds_typeHashKey_iff :
    Binds token typeHashKey value ↔ token = announcement ++ value := by
  have hkey : '\uFFFD' ∉ typeHashKey.toList := by decide
  rw [announcement_eq, List.append_assoc, List.singleton_append]
  constructor
  · rintro ⟨front, -, -, rfl, hfront⟩
    rw [(Utf8.decodeLossy_eq_iff hkey).mp hfront]
  · rintro rfl
    have hne : Utf8.encode typeHashKey ≠ [] := by decide
    exact ⟨_, hne, not_mem_encode_typeHashKey.2, rfl, Utf8.decodeLossy_encode typeHashKey⟩

theorem not_binds_typeHashKey (htoken : ¬ announcement <+: token) :
    ¬ Binds token typeHashKey value := by
  intro hbinds
  exact htoken ⟨value, (binds_typeHashKey_iff.mp hbinds).symm⟩

/-! ## Reading -/

theorem typeHash_of_not_announced
    (hnone : ∀ token ∈ data.splitOn separator, ¬ announcement <+: token) :
    typeHash data = .ok .unset := by
  have hlookup : (parse data)[typeHashKey]? = none := by
    rw [Option.eq_none_iff_forall_ne_some]
    intro value hvalue
    obtain ⟨before, token, after, hdata, hbinds, -⟩ := getElem?_parse_eq_some_iff.mp hvalue
    have hmem : token ∈ data.splitOn separator := by simp [hdata]
    exact not_binds_typeHashKey (hnone token hmem) hbinds
  rw [typeHash, hlookup]

theorem getElem?_typeHashKey
    (hdata : data.splitOn separator = before ++ (announcement ++ raw) :: after)
    (hlast : ∀ token ∈ after, ¬ announcement <+: token) :
    (parse data)[typeHashKey]? = some raw :=
  getElem?_parse_eq_some_iff.mpr ⟨before, _, after, hdata, binds_typeHashKey_iff.mpr rfl,
    fun later hlater _ => not_binds_typeHashKey (hlast later hlater)⟩

theorem typeHash_of_text {text : String}
    (hdata : data.splitOn separator = before ++ (announcement ++ Utf8.encode text) :: after)
    (hlast : ∀ token ∈ after, ¬ announcement <+: token) :
    typeHash data = TypeHash.parse text := by
  rw [typeHash, getElem?_typeHashKey hdata hlast]
  simp only [Utf8.decode?_encode]

theorem typeHash_of_no_text (hraw : ∀ text, raw ≠ Utf8.encode text)
    (hdata : data.splitOn separator = before ++ (announcement ++ raw) :: after)
    (hlast : ∀ token ∈ after, ¬ announcement <+: token) :
    typeHash data = .error (.invalidTypeHash (Utf8.decodeLossy raw)) := by
  have hdecode : Utf8.decode? raw = none := by
    rw [Option.eq_none_iff_forall_ne_some]
    exact fun text htext => hraw text (Utf8.decode?_eq_some_iff.mp htext)
  rw [typeHash, getElem?_typeHashKey hdata hlast]
  simp only [hdecode]

/-! ## Announcing -/

theorem encode_ofTypeHash_eq (hset : h.isUnset = false) :
    Utf8.encode (ofTypeHash h) = announcement ++ Utf8.encode h.text ++ [separator] := by
  rw [encode_ofTypeHash hset, announcement_eq, List.append_assoc _ [equals],
    List.singleton_append]

theorem separator_not_mem_announced (h : TypeHash) :
    separator ∉ announcement ++ Utf8.encode h.text := by
  have hmark : separator ∉ announcement := by decide
  simp [hmark, separator_not_mem_encode_text h]

/-- An announcement after tokens that are complete is a token of its own. -/
theorem splitOn_append_announcement (hset : h.isUnset = false)
    (hp : p = [] ∨ p.getLast? = some separator) (q : List UInt8) :
    ∃ before, (p ++ Utf8.encode (ofTypeHash h) ++ q).splitOn separator =
      before ++ (announcement ++ Utf8.encode h.text) :: q.splitOn separator := by
  have htail : (Utf8.encode (ofTypeHash h) ++ q).splitOn separator =
      (announcement ++ Utf8.encode h.text) :: q.splitOn separator := by
    rw [encode_ofTypeHash_eq hset, List.append_assoc _ [separator], List.singleton_append,
      List.splitOn_append_cons_self_of_not_mem (separator_not_mem_announced h)]
  rcases hp with rfl | hlast
  · exact ⟨[], by rw [List.nil_append, htail, List.nil_append]⟩
  · obtain ⟨front, rfl⟩ := List.getLast?_eq_some_iff.mp hlast
    refine ⟨front.splitOn separator, ?_⟩
    rw [List.append_assoc, List.append_assoc, List.singleton_append,
      List.splitOn_append_cons_self, htail]

theorem typeHash_append_announcement (hread : TypeHash.parse h.text = .ok h)
    (hp : p = [] ∨ p.getLast? = some separator)
    (hq : ∀ token ∈ q.splitOn separator, ¬ announcement <+: token) :
    typeHash (p ++ Utf8.encode (ofTypeHash h) ++ q) = .ok h := by
  obtain ⟨before, hdata⟩ := splitOn_append_announcement (TypeHash.isUnset_of_parse hread) hp q
  rw [typeHash_of_text hdata hq, hread]

/-- User data without an announcement have the unset hash.  All others have the hash that
their last announcement spells, whatever the other tokens are.  So a hash that is read back
from its text is also read back from its announcement among other tokens. -/
theorem typeHash_reads_last_announcement :
    (∀ data, (∀ token ∈ data.splitOn separator, ¬ announcement <+: token) →
      typeHash data = .ok .unset) ∧
    (∀ data before raw after, data.splitOn separator = before ++ (announcement ++ raw) :: after →
      (∀ token ∈ after, ¬ announcement <+: token) →
      (∀ text, raw = Utf8.encode text → typeHash data = TypeHash.parse text) ∧
      ((∀ text, raw ≠ Utf8.encode text) →
        typeHash data = .error (.invalidTypeHash (Utf8.decodeLossy raw)))) ∧
    ∀ h p q, TypeHash.parse h.text = .ok h → (p = [] ∨ p.getLast? = some separator) →
      (∀ token ∈ q.splitOn separator, ¬ announcement <+: token) →
      typeHash (p ++ Utf8.encode (ofTypeHash h) ++ q) = .ok h := by
  refine ⟨fun data => typeHash_of_not_announced, ?_, fun h p q => typeHash_append_announcement⟩
  intro data before raw after hdata hlast
  refine ⟨?_, fun hraw => typeHash_of_no_text hraw hdata hlast⟩
  rintro text rfl
  exact typeHash_of_text hdata hlast

/-- An announcement between another one and a key that is no text, and an announcement of
bytes that are no text. -/
theorem typeHash_surrounded :
    typeHash (announcement ++ [0xFF, separator] ++
        Utf8.encode (ofTypeHash (uniformHash 99 0xAB)) ++ [0xFE, equals]) =
      .ok (uniformHash 99 0xAB) ∧
    typeHash (announcement ++ [0xFF]) =
      .error (.invalidTypeHash (Utf8.decodeLossy [0xFF])) := by
  obtain ⟨-, hlast, hannounced⟩ := typeHash_reads_last_announcement
  have hread : TypeHash.parse (uniformHash 99 0xAB).text = .ok (uniformHash 99 0xAB) :=
    TypeHash.parse_text_of_lt rfl (by decide)
  have hq : ∀ token ∈ List.splitOn separator [0xFE, equals], ¬ announcement <+: token := by
    decide
  have hdata : (announcement ++ [0xFF]).splitOn separator =
      [] ++ (announcement ++ [0xFF]) :: [] := by
    decide
  have hraw : ∀ text, [0xFF] ≠ Utf8.encode text := by
    intro text htext
    have hdecode : Utf8.decode? [0xFF] = none := by decide
    rw [Utf8.decode?_eq_some_iff.mpr htext] at hdecode
    exact Option.some_ne_none text hdecode
  exact ⟨hannounced _ _ _ hread (.inr rfl) hq, (hlast _ _ _ _ hdata (by simp)).2 hraw⟩

end DiscoveryGraph.UserData
