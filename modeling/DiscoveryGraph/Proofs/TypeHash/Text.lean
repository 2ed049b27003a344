import DiscoveryGraph.Proofs.Text.Hex
import DiscoveryGraph.TypeHash

/-!
# Reading the text of a type hash back

A version below one hundred is written with two digits, and then the hash is read back
from its text.  A larger version takes three digits.  Since reading takes exactly two, the
text of such a hash is refused.
-/

namespace DiscoveryGraph.TypeHash

/-! ## The digits of a version -/

theorem decimalValue?_digitChar {n : Nat} (h : n < 10) : decimalValue? n.digitChar = some n := by
  have hall : ∀ d : Fin 10, decimalValue? d.val.digitChar = some d.val := by decide
  exact hall ⟨n, h⟩

theorem versionDigits_of_lt {v : UInt8} (hv : v.toNat < 100) :
    versionDigits v = [Nat.digitChar (v.toNat / 10), Nat.digitChar (v.toNat % 10)] := by
  unfold versionDigits
  by_cases hsmall : v.toNat < 10
  · have htens : v.toNat / 10 = 0 := by omega
    have hunits : v.toNat % 10 = v.toNat := by omega
    rw [if_pos hsmall, Nat.toDigits_of_lt_base hsmall, htens, hunits]
    rfl
  · have htens : v.toNat / 10 < 10 := by omega
    rw [if_neg hsmall, Nat.toDigits_of_base_le (by decide) (by omega),
      Nat.toDigits_of_lt_base htens]
    rfl

theorem versionDigits_of_le {v : UInt8} (hv : 100 ≤ v.toNat) :
    versionDigits v =
      [Nat.digitChar (v.toNat / 100), Nat.digitChar (v.toNat / 10 % 10),
        Nat.digitChar (v.toNat % 10)] := by
  have hsize : v.toNat < 256 := v.toNat_lt
  have hsmall : ¬ v.toNat < 10 := by omega
  have hhundreds : v.toNat / 10 / 10 < 10 := by omega
  unfold versionDigits
  rw [if_neg hsmall, Nat.toDigits_of_base_le (by decide) (by omega),
    Nat.toDigits_of_base_le (by decide) (by omega), Nat.toDigits_of_lt_base hhundreds,
    Nat.div_div_eq_div_mul]
  rfl

theorem version?_digitChars {t u : Nat} (ht : t < 10) (hu : u < 10) :
    version? t.digitChar u.digitChar =
      if 10 * t + u = 0 then none else some (UInt8.ofNat (10 * t + u)) := by
  rw [version?, decimalValue?_digitChar ht, decimalValue?_digitChar hu]
  rfl

theorem version?_digits {v : UInt8} (hv : v.toNat < 100) (hset : v ≠ 0) :
    version? (Nat.digitChar (v.toNat / 10)) (Nat.digitChar (v.toNat % 10)) = some v := by
  have htens : v.toNat / 10 < 10 := by omega
  have hunits : v.toNat % 10 < 10 := by omega
  have hsum : 10 * (v.toNat / 10) + v.toNat % 10 = v.toNat := by omega
  have hne : v.toNat ≠ 0 := fun hzero => hset (UInt8.toNat_inj.mp hzero)
  rw [version?_digitChars htens hunits, hsum, if_neg hne, UInt8.ofNat_toNat]

/-! ## The text -/

theorem ofBytes?_self (h : TypeHash) : ofBytes? h.version h.value = some h :=
  dif_pos h.length_value

theorem ofChars?_chars_of_lt {h : TypeHash} (hset : h.isUnset = false)
    (hversion : h.version.toNat < 100) : ofChars? h.chars = some h := by
  have hne : h.version ≠ 0 := by simpa [isUnset] using hset
  have hchars : h.chars = 'R' :: 'I' :: 'H' :: 'S' :: Nat.digitChar (h.version.toNat / 10) ::
      Nat.digitChar (h.version.toNat % 10) :: '_' :: Hex.encode h.value := by
    rw [chars, versionDigits_of_lt hversion]
    rfl
  rw [hchars, ofChars?, version?_digits hversion hne, Hex.decode?_encode]
  exact h.ofBytes?_self

/-- The third digit stands where the underscore should be. -/
theorem ofChars?_chars_of_le {h : TypeHash} (hversion : 100 ≤ h.version.toNat) :
    ofChars? h.chars = none := by
  have hunderscore : Nat.digitChar (h.version.toNat % 10) ≠ '_' := Nat.digitChar_ne '_' rfl
  rw [chars, versionDigits_of_le hversion]
  simp [ofChars?, hunderscore]

theorem parse_text_of_lt {h : TypeHash} (hset : h.isUnset = false)
    (hversion : h.version.toNat < 100) : parse h.text = .ok h := by
  rw [parse, text, String.toList_ofList, ofChars?_chars_of_lt hset hversion]

theorem parse_text_of_le {h : TypeHash} (hversion : 100 ≤ h.version.toNat) :
    parse h.text = .error (.invalidTypeHash h.text) := by
  rw [parse, text, String.toList_ofList, ofChars?_chars_of_le hversion]

theorem semicolon_not_mem_chars (h : TypeHash) : ';' ∉ h.chars := by
  have hdigit : ∀ n, Nat.digitChar n ≠ ';' := fun n => Nat.digitChar_ne ';' rfl
  have hhex : ';' ∉ Hex.encode h.value := Hex.not_mem_encode hdigit h.value
  rw [chars]
  by_cases hversion : h.version.toNat < 100
  · simp [versionDigits_of_lt hversion, hhex, (hdigit _).symm]
  · simp [versionDigits_of_le (Nat.le_of_not_lt hversion), hhex, (hdigit _).symm]

end DiscoveryGraph.TypeHash
