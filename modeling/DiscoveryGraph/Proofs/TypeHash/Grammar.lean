import DiscoveryGraph.Proofs.TypeHash.Text

/-!
# The texts that are read as type hashes

A text is read as a hash exactly if it is `RIHS`, two decimal digits that are not both
zero, an underscore and sixty-four hexadecimal digits of either case.  Everything else is
refused, and the refusal names the text.  The text of the hash that was read is the text
that was given, in the lower case of its hexadecimal digits.
-/

namespace DiscoveryGraph.TypeHash

variable {s : String} {h : TypeHash} {tens units : Char}

/-! ## The version -/

theorem exists_digitChar_of_isDigit {c : Char} (hc : c.isDigit = true) :
    ∃ n, n < 10 ∧ c = n.digitChar := by
  have hvalue : c.toNat = c.val.toNat := rfl
  rw [Hex.isDigit_iff] at hc
  simp only [Char.le_def, UInt32.le_iff_toNat_le, Char.reduceVal, UInt32.reduceToNat] at hc
  have hlt : c.toNat - 48 < 10 := by omega
  refine ⟨c.toNat - 48, hlt, ?_⟩
  rw [← Char.toNat_inj, Nat.toNat_digitChar_of_lt_ten hlt]
  omega

theorem decimalValue?_eq_none {c : Char} (hc : ¬ c.isDigit = true) : decimalValue? c = none := by
  rw [decimalValue?, if_neg (mt Hex.isDigit_iff.mpr hc)]

theorem version?_eq_some_iff {v : UInt8} :
    version? tens units = some v ↔
      tens.isDigit = true ∧ units.isDigit = true ∧ (tens, units) ≠ ('0', '0') ∧
        v.toNat = Nat.ofDigitChars 10 [tens, units] 0 := by
  by_cases htens : tens.isDigit = true
  · obtain ⟨t, ht, rfl⟩ := exists_digitChar_of_isDigit htens
    by_cases hunits : units.isDigit = true
    · obtain ⟨u, hu, rfl⟩ := exists_digitChar_of_isDigit hunits
      have hvalue : Nat.ofDigitChars 10 [t.digitChar, u.digitChar] 0 = 10 * t + u := by
        rw [Nat.ofDigitChars_cons_digitChar_of_lt_ten ht,
          Nat.ofDigitChars_cons_digitChar_of_lt_ten hu]
        simp
      have hzero : (t.digitChar, u.digitChar) ≠ ('0', '0') ↔ 10 * t + u ≠ 0 := by
        rw [Ne, Prod.mk.injEq, Nat.digitChar_eq_zero, Nat.digitChar_eq_zero]
        omega
      have hversion : (UInt8.ofNat (10 * t + u)).toNat = 10 * t + u := by
        have hfits : 10 * t + u < 256 := by omega
        exact UInt8.toNat_ofNat_of_lt' hfits
      rw [version?_digitChars ht hu, hvalue, hzero, ← hversion, UInt8.toNat_inj, hversion]
      simp [htens, hunits, eq_comm]
    · simp [version?, decimalValue?_digitChar ht, decimalValue?_eq_none hunits, hunits]
  · simp [version?, decimalValue?_eq_none htens, htens]

theorem exists_version? (htens : tens.isDigit = true) (hunits : units.isDigit = true)
    (hset : (tens, units) ≠ ('0', '0')) : ∃ v, version? tens units = some v := by
  obtain ⟨t, ht, rfl⟩ := exists_digitChar_of_isDigit htens
  obtain ⟨u, hu, rfl⟩ := exists_digitChar_of_isDigit hunits
  rw [Ne, Prod.mk.injEq, Nat.digitChar_eq_zero, Nat.digitChar_eq_zero] at hset
  have hne : ¬ 10 * t + u = 0 := by omega
  exact ⟨_, (version?_digitChars ht hu).trans (if_neg hne)⟩

/-- The digits of a version that was read are those of its text. -/
theorem versionDigits_of_version? {v : UInt8} (h : version? tens units = some v) :
    versionDigits v = [tens, units] := by
  obtain ⟨htens, hunits, -, hvalue⟩ := version?_eq_some_iff.mp h
  obtain ⟨t, ht, rfl⟩ := exists_digitChar_of_isDigit htens
  obtain ⟨u, hu, rfl⟩ := exists_digitChar_of_isDigit hunits
  rw [Nat.ofDigitChars_cons_digitChar_of_lt_ten ht,
    Nat.ofDigitChars_cons_digitChar_of_lt_ten hu, Nat.ofDigitChars_nil] at hvalue
  have hdiv : v.toNat / 10 = t := by omega
  have hmod : v.toNat % 10 = u := by omega
  rw [versionDigits_of_lt (by omega), hdiv, hmod]

theorem version?_ne_zero {v : UInt8} (h : version? tens units = some v) : v ≠ 0 := by
  rintro rfl
  obtain ⟨-, -, hset, -⟩ := version?_eq_some_iff.mp h
  have hdigits : [tens, units] = ['0', '0'] := (versionDigits_of_version? h).symm
  simp_all

/-! ## The text -/

theorem ofBytes?_eq_some_iff {version : UInt8} {value : List UInt8} :
    ofBytes? version value = some h ↔ h.version = version ∧ h.value = value := by
  constructor
  · intro hbytes
    unfold ofBytes? at hbytes
    split at hbytes
    · obtain rfl := Option.some.inj hbytes
      exact ⟨rfl, rfl⟩
    · contradiction
  · rintro ⟨rfl, rfl⟩
    exact h.ofBytes?_self

theorem ofChars?_eq_some_iff {cs : List Char} :
    ofChars? cs = some h ↔
      ∃ tens units hex, cs = 'R' :: 'I' :: 'H' :: 'S' :: tens :: units :: '_' :: hex ∧
        version? tens units = some h.version ∧ Hex.Spells hex h.value := by
  constructor
  · intro hread
    unfold ofChars? at hread
    split at hread
    next tens units hex =>
      simp only [Option.bind_eq_bind, Option.bind_eq_some_iff, Hex.decode?_eq_some_iff,
        ofBytes?_eq_some_iff] at hread
      obtain ⟨version, hversion, value, hvalue, rfl, rfl⟩ := hread
      exact ⟨tens, units, hex, rfl, hversion, hvalue⟩
    next => contradiction
  · rintro ⟨tens, units, hex, rfl, hversion, hvalue⟩
    rw [ofChars?, hversion, Hex.decode?_eq_some_iff.mpr hvalue]
    exact h.ofBytes?_self

/-- The digits of a text that is read: two decimal ones that are not both zero, and
sixty-four hexadecimal ones of either case. -/
structure Admissible (tens units : Char) (hex : List Char) : Prop where
  isDigit_tens : tens.isDigit = true
  isDigit_units : units.isDigit = true
  isSet : (tens, units) ≠ ('0', '0')
  length_hex : hex.length = 64
  isHexDigit_hex : ∀ c ∈ hex, c.isHexDigit = true

/-- The text with these digits. -/
def rihs (tens units : Char) (hex : List Char) : String :=
  "RIHS" ++ String.ofList [tens, units] ++ "_" ++ String.ofList hex

theorem toList_rihs (tens units : Char) (hex : List Char) :
    (rihs tens units hex).toList = 'R' :: 'I' :: 'H' :: 'S' :: tens :: units :: '_' :: hex := by
  simp [rihs]

/-- The text has the form that is read. -/
def IsRihs (s : String) : Prop :=
  ∃ tens units hex, s = rihs tens units hex ∧ Admissible tens units hex

/-- The text has the form, and its digits are those of the hash. -/
inductive Spells : String → TypeHash → Prop
  | rihs {tens units : Char} {hex : List Char} {h : TypeHash}
      (hdigits : Admissible tens units hex)
      (hversion : h.version.toNat = Nat.ofDigitChars 10 [tens, units] 0)
      (hvalue : Hex.Spells hex h.value) :
      Spells (rihs tens units hex) h

theorem spells_iff :
    Spells s h ↔
      ∃ tens units hex, s.toList = 'R' :: 'I' :: 'H' :: 'S' :: tens :: units :: '_' :: hex ∧
        version? tens units = some h.version ∧ Hex.Spells hex h.value := by
  constructor
  · rintro ⟨hdigits, hversion, hvalue⟩
    exact ⟨_, _, _, toList_rihs _ _ _, version?_eq_some_iff.mpr
      ⟨hdigits.isDigit_tens, hdigits.isDigit_units, hdigits.isSet, hversion⟩, hvalue⟩
  · rintro ⟨tens, units, hex, hs, hversion, hvalue⟩
    obtain ⟨htens, hunits, hset, hvalueOf⟩ := version?_eq_some_iff.mp hversion
    have hlength : hex.length = 2 * typeHashSize := by rw [hvalue.length_eq, h.length_value]
    obtain rfl : s = rihs tens units hex :=
      String.toList_inj.mp (hs.trans (toList_rihs tens units hex).symm)
    exact .rihs ⟨htens, hunits, hset, hlength, hvalue.isHexDigit⟩ hvalueOf hvalue

theorem parse_eq_ok_iff : parse s = .ok h ↔ Spells s h := by
  rw [spells_iff, ← ofChars?_eq_some_iff, parse]
  cases ofChars? s.toList <;> simp

theorem isUnset_of_parse (hread : parse s = .ok h) : h.isUnset = false := by
  obtain ⟨tens, units, hex, -, hversion, -⟩ := spells_iff.mp (parse_eq_ok_iff.mp hread)
  simpa [isUnset] using version?_ne_zero hversion

/-- Every text of the form spells a hash. -/
theorem exists_spells_iff : (∃ h, Spells s h) ↔ IsRihs s := by
  constructor
  · rintro ⟨h, hdigits, -, -⟩
    exact ⟨_, _, _, rfl, hdigits⟩
  · rintro ⟨tens, units, hex, rfl, hdigits⟩
    obtain ⟨version, hversion⟩ :=
      exists_version? hdigits.isDigit_tens hdigits.isDigit_units hdigits.isSet
    have hlength : hex.length = 2 * typeHashSize := hdigits.length_hex
    obtain ⟨value, hvalue⟩ := Hex.exists_spells hdigits.isHexDigit_hex hlength
    have hsize : value.length = typeHashSize := by
      have hpairs := hvalue.length_eq
      omega
    exact ⟨⟨version, value, hsize⟩,
      spells_iff.mpr ⟨_, _, _, toList_rihs _ _ _, hversion, hvalue⟩⟩

/-- A hexadecimal digit in lower case, and any other character as it is. -/
def lowerDigit (c : Char) : Char := if c.isHexDigit then c.toLower else c

/-- The text with its hexadecimal digits in lower case. -/
def lowerDigits (s : String) : String := String.ofList (s.toList.map lowerDigit)

theorem lowerDigit_of_isDigit {c : Char} (hc : c.isDigit = true) : lowerDigit c = c := by
  obtain ⟨n, hn, rfl⟩ := exists_digitChar_of_isDigit hc
  have hall : ∀ d : Fin 10, lowerDigit d.val.digitChar = d.val.digitChar := by decide
  exact hall ⟨n, hn⟩

/-- Neither the letters of the mark nor the underscore is a hexadecimal digit, and decimal
digits have no case. -/
theorem Spells.text_eq (hs : Spells s h) : h.text = lowerDigits s := by
  obtain ⟨tens, units, hex, hchars, hversion, hvalue⟩ := spells_iff.mp hs
  obtain ⟨htens, hunits, -, -⟩ := version?_eq_some_iff.mp hversion
  have hmark : ['R', 'I', 'H', 'S'].map lowerDigit = ['R', 'I', 'H', 'S'] := by decide
  have hdigits : [tens, units].map lowerDigit = [tens, units] := by
    simp [lowerDigit_of_isDigit htens, lowerDigit_of_isDigit hunits]
  have hhex : hex.map lowerDigit = hex.map Char.toLower :=
    List.map_congr_left fun c hc => if_pos (hvalue.isHexDigit c hc)
  have hsplit : s.toList = ['R', 'I', 'H', 'S'] ++ [tens, units] ++ '_' :: hex := hchars
  have hunderscore : lowerDigit '_' = '_' := by decide
  rw [text, lowerDigits, chars, versionDigits_of_version? hversion, hvalue.encode_eq, hsplit,
    List.map_append, List.map_append, hmark, hdigits, List.map_cons, hunderscore, hhex]

/-- A text is read exactly as the hash that it spells.  Every text of the form is read, and
any other is refused by name.  The text of the hash that was read is the text in lower
case. -/
theorem parse_reads_spellings (s : String) :
    (∀ h, parse s = .ok h ↔ Spells s h) ∧
      ((∃ h, parse s = .ok h) ↔ IsRihs s) ∧
      (¬ IsRihs s → parse s = .error (.invalidTypeHash s)) ∧
      ∀ h, parse s = .ok h → h.text = lowerDigits s := by
  have hform : (∃ h, parse s = .ok h) ↔ IsRihs s := by
    simp only [parse_eq_ok_iff, exists_spells_iff]
  refine ⟨fun h => parse_eq_ok_iff, hform, fun hnone => ?_, fun h hread => ?_⟩
  · cases hread : ofChars? s.toList with
    | none => rw [parse, hread]
    | some h =>
        have hok : parse s = .ok h := by rw [parse, hread]
        exact absurd (hform.mp ⟨h, hok⟩) hnone
  · exact (parse_eq_ok_iff.mp hread).text_eq

/-- The hash of version 42 whose bytes are all `0xAB`. -/
def answerHash : TypeHash where
  version := 42
  value := List.replicate typeHashSize 0xAB
  length_value := List.length_replicate

/-- A text with digits of both cases. -/
def answerText : String := rihs '4' '2' (List.replicate typeHashSize ['a', 'B']).flatten

theorem parse_answerText :
    parse answerText = .ok answerHash ∧ answerHash.text = lowerDigits answerText ∧
      parse "RIHS" = .error (.invalidTypeHash "RIHS") := by
  obtain ⟨hread, -, -, htext⟩ := parse_reads_spellings answerText
  obtain ⟨-, -, hrefuse, -⟩ := parse_reads_spellings "RIHS"
  have hvalue : Hex.Spells (List.replicate typeHashSize ['a', 'B']).flatten answerHash.value :=
    Hex.decode?_eq_some_iff.mp (by decide)
  have hdigits : Admissible '4' '2' (List.replicate typeHashSize ['a', 'B']).flatten :=
    ⟨by decide, by decide, by decide, by decide, hvalue.isHexDigit⟩
  have hok : parse answerText = .ok answerHash :=
    (hread answerHash).mpr (.rihs hdigits rfl hvalue)
  have hnone : ¬ IsRihs "RIHS" := by
    rintro ⟨tens, units, hex, htext, -⟩
    have hchars := congrArg String.toList htext
    rw [toList_rihs] at hchars
    simp at hchars
  exact ⟨hok, htext _ hok, hrefuse hnone⟩

end DiscoveryGraph.TypeHash
