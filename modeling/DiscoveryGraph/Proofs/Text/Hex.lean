import DiscoveryGraph.Text.Hex

/-!
# Reading hexadecimal text back

Every byte is read back from its two digits, so the bytes are read back from their text.
Other texts that are read differ from it in the case of their digits only: reading takes
exactly the pairs of digits of either case, and the lower case of what was read is the text
of the bytes.
-/

namespace DiscoveryGraph.Hex

/-! ## The text of bytes -/

theorem digitValue?_digitChar {n : Nat} (h : n < 16) : digitValue? n.digitChar = some n := by
  have hall : ∀ d : Fin 16, digitValue? d.val.digitChar = some d.val := by decide
  exact hall ⟨n, h⟩

theorem byte?_of_digitValue? {high low : Char} {m n : Nat} (hhigh : digitValue? high = some m)
    (hlow : digitValue? low = some n) : byte? high low = some (UInt8.ofNat (16 * m + n)) := by
  rw [byte?, hhigh, hlow]
  rfl

theorem byte?_pair (b : UInt8) :
    byte? (Nat.digitChar (b.toNat / 16)) (Nat.digitChar (b.toNat % 16)) = some b := by
  have hb : b.toNat < 256 := b.toNat_lt
  have hhigh : b.toNat / 16 < 16 := by omega
  have hlow : b.toNat % 16 < 16 := by omega
  have hsum : 16 * (b.toNat / 16) + b.toNat % 16 = b.toNat := by omega
  rw [byte?_of_digitValue? (digitValue?_digitChar hhigh) (digitValue?_digitChar hlow), hsum,
    UInt8.ofNat_toNat]

theorem decode?_encode (bytes : List UInt8) : decode? (encode bytes) = some bytes := by
  induction bytes with
  | nil => rfl
  | cons b bytes ih =>
      rw [encode_cons, pair, List.cons_append, List.cons_append, List.nil_append, decode?,
        byte?_pair, ih]
      rfl

theorem not_mem_encode {c : Char} (hdigit : ∀ n, Nat.digitChar n ≠ c) (bytes : List UInt8) :
    c ∉ encode bytes := by
  intro hc
  obtain ⟨b, -, hb⟩ := List.mem_flatMap.mp hc
  simp only [pair, List.mem_cons, List.not_mem_nil, or_false] at hb
  rcases hb with hhigh | hlow
  · exact hdigit _ hhigh.symm
  · exact hdigit _ hlow.symm

/-! ## Digits without a leading zero -/

/-- What the short form leaves out is a leading zero. -/
theorem leftpad_short (b : UInt8) : (short b).leftpad 2 '0' = pair b := by
  unfold short
  split
  · next hsmall =>
      have hhigh : b.toNat / 16 = 0 := Nat.div_eq_of_lt hsmall
      have hlow : b.toNat % 16 = b.toNat := Nat.mod_eq_of_lt hsmall
      rw [pair, hhigh, hlow]
      rfl
  · rfl

/-- The short form is the numeral to base sixteen. -/
theorem short_eq_toDigits (b : UInt8) : short b = Nat.toDigits 16 b.toNat := by
  have hb : b.toNat < 256 := b.toNat_lt
  by_cases hsmall : b.toNat < 16
  · rw [short, if_pos hsmall, Nat.toDigits_of_lt_base hsmall]
  · have hhigh : b.toNat / 16 < 16 := by omega
    rw [short, if_neg hsmall, Nat.toDigits_of_base_le (by decide) (by omega),
      Nat.toDigits_of_lt_base hhigh]
    rfl

theorem short_injective {a b : UInt8} (h : short a = short b) : a = b := by
  have hpair : pair a = pair b := by rw [← leftpad_short, ← leftpad_short, h]
  obtain ⟨hhigh, hlow⟩ : Nat.digitChar (a.toNat / 16) = Nat.digitChar (b.toNat / 16) ∧
      Nat.digitChar (a.toNat % 16) = Nat.digitChar (b.toNat % 16) := by
    simpa [pair] using hpair
  have hread : some a = some b := by rw [← byte?_pair a, ← byte?_pair b, hhigh, hlow]
  exact Option.some.inj hread

theorem not_mem_short {c : Char} (hdigit : ∀ n, Nat.digitChar n ≠ c) (b : UInt8) :
    c ∉ short b := by
  unfold short
  split
  · simp [(hdigit _).symm]
  · simp [pair, (hdigit _).symm]

/-! ## Digits of either case -/

/-- The digits by ascending value. -/
def digits : List Char :=
  ['0', '1', '2', '3', '4', '5', '6', '7', '8', '9', 'a', 'b', 'c', 'd', 'e', 'f']

/-- The value of a digit of either case is its place among the digits. -/
def worth (c : Char) : Nat := digits.idxOf c.toLower

theorem isDigit_iff {c : Char} : c.isDigit = true ↔ '0' ≤ c ∧ c ≤ '9' := by
  simp only [Char.isDigit, Bool.and_eq_true, decide_eq_true_iff, ge_iff_le, Char.le_def]

theorem isHexDigit_iff {c : Char} :
    c.isHexDigit = true ↔ ('0' ≤ c ∧ c ≤ '9') ∨ ('a' ≤ c ∧ c ≤ 'f') ∨ ('A' ≤ c ∧ c ≤ 'F') := by
  simp only [Char.isHexDigit, Bool.or_eq_true, isDigit_iff, Bool.and_eq_true,
    decide_eq_true_iff, ge_iff_le, Char.le_def, or_assoc]

theorem toNat_lt_of_isHexDigit {c : Char} (h : c.isHexDigit = true) : c.toNat < 128 := by
  have hvalue : c.toNat = c.val.toNat := rfl
  simp only [isHexDigit_iff, Char.le_def, UInt32.le_iff_toNat_le, Char.reduceVal,
    UInt32.reduceToNat] at h
  omega

theorem worth_of_isHexDigit {c : Char} (h : c.isHexDigit = true) :
    digitValue? c = some (worth c) ∧ worth c < 16 ∧ Nat.digitChar (worth c) = c.toLower := by
  have hall : ∀ n : Fin 128, (Char.ofNat n).isHexDigit = true →
      digitValue? (Char.ofNat n) = some (worth (Char.ofNat n)) ∧ worth (Char.ofNat n) < 16 ∧
        Nat.digitChar (worth (Char.ofNat n)) = (Char.ofNat n).toLower := by
    decide
  have hc := hall ⟨c.toNat, toNat_lt_of_isHexDigit h⟩
  simp only [Char.ofNat_toNat] at hc
  exact hc h

theorem digitValue?_eq_none {c : Char} (h : ¬ c.isHexDigit = true) : digitValue? c = none := by
  rw [isHexDigit_iff, not_or, not_or] at h
  obtain ⟨hdecimal, hlower, hupper⟩ := h
  rw [digitValue?, if_neg hdecimal, if_neg hlower, if_neg hupper]

theorem byte?_of_isHexDigit {high low : Char} (hhigh : high.isHexDigit = true)
    (hlow : low.isHexDigit = true) :
    byte? high low = some (UInt8.ofNat (16 * worth high + worth low)) := by
  obtain ⟨hreadHigh, -, -⟩ := worth_of_isHexDigit hhigh
  obtain ⟨hreadLow, -, -⟩ := worth_of_isHexDigit hlow
  exact byte?_of_digitValue? hreadHigh hreadLow

theorem byte?_eq_some_iff {high low : Char} {b : UInt8} :
    byte? high low = some b ↔
      high.isHexDigit = true ∧ low.isHexDigit = true ∧ b.toNat = 16 * worth high + worth low := by
  by_cases hhigh : high.isHexDigit = true
  · obtain ⟨hreadHigh, hhighLt, -⟩ := worth_of_isHexDigit hhigh
    by_cases hlow : low.isHexDigit = true
    · obtain ⟨-, hlowLt, -⟩ := worth_of_isHexDigit hlow
      have hfits : 16 * worth high + worth low < 256 := by omega
      have hbyte : (UInt8.ofNat (16 * worth high + worth low)).toNat =
          16 * worth high + worth low :=
        UInt8.toNat_ofNat_of_lt' hfits
      rw [byte?_of_isHexDigit hhigh hlow, Option.some_inj, ← UInt8.toNat_inj, hbyte]
      simp [hhigh, hlow, eq_comm]
    · simp [byte?, hreadHigh, digitValue?_eq_none hlow, hlow]
  · simp [byte?, digitValue?_eq_none hhigh, hhigh]

theorem pair_of_byte? {high low : Char} {b : UInt8} (h : byte? high low = some b) :
    pair b = [high.toLower, low.toLower] := by
  obtain ⟨hhigh, hlow, hvalue⟩ := byte?_eq_some_iff.mp h
  obtain ⟨-, hhighLt, hhighDigit⟩ := worth_of_isHexDigit hhigh
  obtain ⟨-, hlowLt, hlowDigit⟩ := worth_of_isHexDigit hlow
  have hdiv : b.toNat / 16 = worth high := by omega
  have hmod : b.toNat % 16 = worth low := by omega
  rw [pair, hdiv, hmod, hhighDigit, hlowDigit]

/-! ## Texts that spell bytes -/

/-- Two digits of either case for each byte, the high one first, and nothing else. -/
structure Spells (cs : List Char) (bytes : List UInt8) : Prop where
  length_eq : cs.length = 2 * bytes.length
  isHexDigit : ∀ c ∈ cs, c.isHexDigit = true
  value : ∀ (i : Nat) (high low : Char), cs[2 * i]? = some high → cs[2 * i + 1]? = some low →
    bytes[i]?.map UInt8.toNat = some (16 * worth high + worth low)

variable {cs : List Char} {bytes : List UInt8}

theorem spells_nil_iff : Spells [] bytes ↔ bytes = [] := by
  constructor
  · intro h
    have hlength : 0 = 2 * bytes.length := h.length_eq
    exact List.length_eq_zero_iff.mp (by omega)
  · rintro rfl
    exact ⟨rfl, by simp, by simp⟩

theorem not_spells_singleton (c : Char) : ¬ Spells [c] bytes := by
  intro h
  have hlength : 1 = 2 * bytes.length := h.length_eq
  omega

theorem spells_cons_cons_iff {high low : Char} :
    Spells (high :: low :: cs) bytes ↔
      ∃ b rest, bytes = b :: rest ∧ byte? high low = some b ∧ Spells cs rest := by
  constructor
  · intro h
    cases bytes with
    | nil => exact absurd h.length_eq (by simp)
    | cons b rest =>
        have hlength := h.length_eq
        rw [List.length_cons, List.length_cons, List.length_cons] at hlength
        have hhigh : high.isHexDigit = true := h.isHexDigit high (by simp)
        have hlow : low.isHexDigit = true := h.isHexDigit low (by simp)
        have hvalue : b.toNat = 16 * worth high + worth low :=
          Option.some.inj (h.value 0 high low rfl rfl)
        refine ⟨b, rest, rfl, byte?_eq_some_iff.mpr ⟨hhigh, hlow, hvalue⟩, by omega, ?_, ?_⟩
        · exact fun c hc => h.isHexDigit c (by simp [hc])
        · exact fun i => h.value (i + 1)
  · rintro ⟨b, rest, rfl, hb, h⟩
    obtain ⟨hhigh, hlow, hvalue⟩ := byte?_eq_some_iff.mp hb
    have hlength := h.length_eq
    refine ⟨?_, ?_, ?_⟩
    · rw [List.length_cons, List.length_cons, List.length_cons]
      omega
    · simpa [hhigh, hlow] using h.isHexDigit
    · intro i high' low' hhigh' hlow'
      cases i with
      | zero =>
          obtain rfl : high = high' := Option.some.inj hhigh'
          obtain rfl : low = low' := Option.some.inj hlow'
          exact congrArg some hvalue
      | succ i => exact h.value i high' low' hhigh' hlow'

theorem decode?_eq_some_iff : decode? cs = some bytes ↔ Spells cs bytes := by
  induction cs using decode?.induct generalizing bytes with
  | case1 => rw [decode?, spells_nil_iff, Option.some_inj, eq_comm]
  | case2 c => simp [decode?, not_spells_singleton]
  | case3 high low cs ih =>
      simp only [decode?, Option.bind_eq_bind, Option.bind_eq_some_iff, ih, Option.pure_def,
        Option.some_inj, spells_cons_cons_iff]
      constructor
      · rintro ⟨b, hb, rest, hrest, rfl⟩
        exact ⟨b, rest, rfl, hb, hrest⟩
      · rintro ⟨b, rest, rfl, hb, hrest⟩
        exact ⟨b, hb, rest, hrest, rfl⟩

/-- Every text of digits in pairs spells some bytes. -/
theorem exists_spells (hdigits : ∀ c ∈ cs, c.isHexDigit = true) {n : Nat}
    (hlength : cs.length = 2 * n) : ∃ bytes, Spells cs bytes := by
  induction cs using decode?.induct generalizing n with
  | case1 => exact ⟨[], spells_nil_iff.mpr rfl⟩
  | case2 c =>
      rw [List.length_singleton] at hlength
      omega
  | case3 high low cs ih =>
      have hhigh : high.isHexDigit = true := hdigits high (by simp)
      have hlow : low.isHexDigit = true := hdigits low (by simp)
      have hrest : ∀ c ∈ cs, c.isHexDigit = true := fun c hc => hdigits c (by simp [hc])
      rw [List.length_cons, List.length_cons] at hlength
      have hhalf : cs.length = 2 * (n - 1) := by omega
      obtain ⟨rest, hspells⟩ := ih hrest hhalf
      exact ⟨_, spells_cons_cons_iff.mpr
        ⟨_, rest, rfl, byte?_of_isHexDigit hhigh hlow, hspells⟩⟩

/-- The text of the bytes is the lower case of every text that spells them. -/
theorem Spells.encode_eq (h : Spells cs bytes) : encode bytes = cs.map Char.toLower := by
  induction cs using decode?.induct generalizing bytes with
  | case1 =>
      rw [spells_nil_iff.mp h]
      rfl
  | case2 c => exact absurd h (not_spells_singleton c)
  | case3 high low cs ih =>
      obtain ⟨b, rest, rfl, hb, hrest⟩ := spells_cons_cons_iff.mp h
      rw [encode_cons, pair_of_byte? hb, ih hrest]
      rfl

end DiscoveryGraph.Hex
