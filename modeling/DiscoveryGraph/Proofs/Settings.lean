import DiscoveryGraph.Proofs.Text.Hex
import DiscoveryGraph.Settings
import Mathlib.Data.List.Forall2
import Mathlib.Data.List.Induction
import Mathlib.Data.Nat.Digits.Defs

/-!
# What an environment sets

Every environment gives settings.  An empty variable counts as unset, a poll time is taken
only if it is a number of milliseconds that is not zero and fits 64 bits, and security is
there exactly if it is switched on.  Numbers and words are compared with what they spell:
digits by their places, letters up to their case.
-/

namespace DiscoveryGraph

/-- The environment in which the empty variables are unset. -/
def Environment.withoutEmpty (env : Environment) : Environment :=
  fun name => (env name).filter fun v => v ≠ ""

namespace Settings

variable {env : Environment} {sec : SecuritySettings} {name v word : String}

/-! ## Variables -/

theorem value?_eq_some_iff : value? env name = some v ↔ env name = some v ∧ v ≠ "" := by
  simp [value?, Option.filter_eq_some_iff]

theorem value?_withoutEmpty (env : Environment) (name : String) :
    value? (Environment.withoutEmpty env) name = value? env name := by
  refine Option.ext fun v => ?_
  simp [value?_eq_some_iff, Environment.withoutEmpty, Option.filter_eq_some_iff]

/-- Settings depend on an environment through the values that are not empty. -/
theorem ofEnvironment_congr {other : Environment} (h : value? env = value? other) :
    ofEnvironment env = ofEnvironment other := by
  rw [ofEnvironment, ofEnvironment, h]

/-! ## Numbers -/

/-- The value of a decimal digit. -/
def digitWorth (c : Char) : Nat := c.toNat - '0'.toNat

/-- The text writes `n` in decimal digits, with or without a plus sign. -/
def Numeral (v : String) (n : Nat) : Prop :=
  ∃ digits, (v.toList = digits ∨ v.toList = '+' :: digits) ∧ digits ≠ [] ∧
    (∀ c ∈ digits, '0' ≤ c ∧ c ≤ '9') ∧ n = Nat.ofDigits 10 (digits.reverse.map digitWorth)

theorem decimal_eq_ofDigits (digits : List Char) :
    decimal digits = Nat.ofDigits 10 (digits.reverse.map digitWorth) := by
  induction digits using List.reverseRecOn with
  | nil => rfl
  | append_singleton digits c ih =>
      rw [decimal, List.foldl_concat, List.reverse_concat, List.map_cons, Nat.ofDigits_cons,
        ← ih, Nat.add_comm]
      rfl

theorem unsigned_plus_cons (rest : List Char) : unsigned ('+' :: rest) = rest := rfl

theorem unsigned_of_digits {digits : List Char} (h : ∀ c ∈ digits, c.isDigit = true) :
    unsigned digits = digits := by
  rw [unsigned.eq_def]
  split
  · exact absurd (h '+' (by simp)) (by decide)
  · rfl

theorem eq_or_eq_cons_unsigned (cs : List Char) : cs = unsigned cs ∨ cs = '+' :: unsigned cs := by
  rw [unsigned.eq_def]
  split
  · exact Or.inr rfl
  · exact Or.inl rfl

/-- A numeral is judged by what stands behind its plus sign. -/
theorem numeral_iff {n : Nat} :
    Numeral v n ↔ unsigned v.toList ≠ [] ∧ (∀ c ∈ unsigned v.toList, c.isDigit = true) ∧
      n = decimal (unsigned v.toList) := by
  simp only [Numeral, ← Hex.isDigit_iff, ← decimal_eq_ofDigits]
  constructor
  · rintro ⟨digits, hv, hne, hdigits, hn⟩
    have hunsigned : unsigned v.toList = digits := by
      rcases hv with hv | hv
      · rw [hv, unsigned_of_digits hdigits]
      · rw [hv, unsigned_plus_cons]
    rw [hunsigned]
    exact ⟨hne, hdigits, hn⟩
  · rintro ⟨hne, hdigits, hn⟩
    exact ⟨_, eq_or_eq_cons_unsigned v.toList, hne, hdigits, hn⟩

theorem milliseconds?_eq_some_iff {n : Nat} :
    milliseconds? v = some n ↔ Numeral v n ∧ 0 < n ∧ n < countRange := by
  have hdigits :
      (¬ ((unsigned v.toList).isEmpty || !(unsigned v.toList).all Char.isDigit) = true) ↔
        unsigned v.toList ≠ [] ∧ ∀ c ∈ unsigned v.toList, c.isDigit = true := by
    simp
  rw [numeral_iff, milliseconds?, Option.ite_none_left_eq_some, hdigits,
    Option.ite_none_right_eq_some, Option.some_inj]
  constructor
  · rintro ⟨⟨hne, hall⟩, hrange, rfl⟩
    exact ⟨⟨hne, hall, rfl⟩, hrange⟩
  · rintro ⟨⟨hne, hall, rfl⟩, hrange⟩
    exact ⟨⟨hne, hall⟩, hrange, rfl⟩

/-! ## Words -/

/-- The characters are the same up to the case of an ASCII letter. -/
def SameLetter (c d : Char) : Prop := c = d ∨ c = d.toUpper ∨ c = d.toLower

theorem toNat_toLower (c : Char) :
    c.toLower.toNat = if 65 ≤ c.toNat ∧ c.toNat ≤ 90 then c.toNat + 32 else c.toNat := by
  by_cases hupper : 65 ≤ c.toNat ∧ c.toNat ≤ 90
  · have hlower : c.toLower.val = c.val + ('a'.val - 'A'.val) :=
      congrArg Char.val (dif_pos hupper)
    have hstep : ('a'.val - 'A'.val).toNat = 32 := rfl
    rw [if_pos hupper, ← Char.toNat_val, hlower, UInt32.toNat_add, Char.toNat_val, hstep]
    omega
  · rw [if_neg hupper, show c.toLower = c from dif_neg hupper]

theorem toNat_toUpper (c : Char) :
    c.toUpper.toNat = if 97 ≤ c.toNat ∧ c.toNat ≤ 122 then c.toNat - 32 else c.toNat := by
  by_cases hlower : 97 ≤ c.toNat ∧ c.toNat ≤ 122
  · have hrange : 'a'.val ≤ c.val ∧ c.val ≤ 'z'.val := hlower
    have hupper : c.toUpper.val = c.val + ('A'.val - 'a'.val) := by
      delta Char.toUpper
      rw [dif_pos hrange]
    have hstep : ('A'.val - 'a'.val).toNat = 4294967296 - 32 := rfl
    rw [if_pos hlower, ← Char.toNat_val, hupper, UInt32.toNat_add, Char.toNat_val, hstep]
    omega
  · rw [if_neg hlower, show c.toUpper = c from dif_neg hlower]

theorem sameLetter_iff {c d : Char} : SameLetter c d ↔ c.toLower = d.toLower := by
  simp only [SameLetter, ← Char.toNat_inj, toNat_toLower, toNat_toUpper]
  split_ifs <;> omega

/-- The text is the word, letter by letter and in any case. -/
def InAnyCase (v word : String) : Prop := List.Forall₂ SameLetter v.toList word.toList

theorem equalIgnoringCase_iff : equalIgnoringCase v word = true ↔ InAnyCase v word := by
  have hletters : SameLetter = fun c d => c.toLower = d.toLower :=
    funext₂ fun _ _ => propext sameLetter_iff
  rw [InAnyCase, hletters, equalIgnoringCase, decide_eq_true_iff, ← List.forall₂_eq_eq_eq,
    List.forall₂_map_left_iff, List.forall₂_map_right_iff]

/-! ## The settings -/

/-- The environment asks a listener to wait `n` milliseconds. -/
def AsksToPoll (env : Environment) (n : Nat) : Prop :=
  ∃ v, env "HDDS_GRAPH_LISTENER_POLL_MS" = some v ∧ Numeral v n ∧
    1 ≤ n ∧ n ≤ 18446744073709551615

/-- The environment asks for security. -/
def AsksForSecurity (env : Environment) : Prop :=
  ∃ v, env "ROS_SECURITY_ENABLE" = some v ∧ (v = "1" ∨ InAnyCase v "true")

theorem Numeral.ne_empty {n : Nat} (h : Numeral v n) : v ≠ "" := by
  rintro rfl
  obtain ⟨digits, hdigits | hdigits, hne, -⟩ := h
  · exact hne (by simpa using hdigits.symm)
  · simp at hdigits

theorem bind_milliseconds?_eq_some_iff {n : Nat} :
    (value? env "HDDS_GRAPH_LISTENER_POLL_MS").bind milliseconds? = some n ↔
      AsksToPoll env n := by
  simp only [Option.bind_eq_some_iff, value?_eq_some_iff, milliseconds?_eq_some_iff, AsksToPoll]
  constructor
  · rintro ⟨v, ⟨hv, -⟩, hn, hpos, hlt⟩
    exact ⟨v, hv, hn, hpos, Nat.le_of_lt_succ hlt⟩
  · rintro ⟨v, hv, hn, hpos, hle⟩
    exact ⟨v, ⟨hv, hn.ne_empty⟩, hn, hpos, Nat.lt_succ_of_le hle⟩

theorem pollMilliseconds_of_asks {n : Nat} (h : AsksToPoll env n) :
    (ofEnvironment env).pollMilliseconds = n := by
  rw [ofEnvironment, bind_milliseconds?_eq_some_iff.mpr h, Option.getD_some]

theorem pollMilliseconds_of_not_asks (h : ∀ n, ¬ AsksToPoll env n) :
    (ofEnvironment env).pollMilliseconds = 100 := by
  have hnone : (value? env "HDDS_GRAPH_LISTENER_POLL_MS").bind milliseconds? = none :=
    Option.eq_none_iff_forall_ne_some.mpr fun n hn => h n (bind_milliseconds?_eq_some_iff.mp hn)
  rw [ofEnvironment, hnone]
  rfl

theorem pollMilliseconds_ne_zero (env : Environment) :
    (ofEnvironment env).pollMilliseconds ≠ 0 := by
  by_cases h : ∃ n, AsksToPoll env n
  · obtain ⟨n, hn⟩ := h
    obtain ⟨v, -, -, hpos, -⟩ := id hn
    rw [pollMilliseconds_of_asks hn]
    exact Nat.ne_of_gt hpos
  · rw [pollMilliseconds_of_not_asks (not_exists.mp h)]
    decide

theorem isOn_iff : isOn v = true ↔ v = "1" ∨ InAnyCase v "true" := by
  rw [isOn, Bool.or_eq_true, decide_eq_true_iff, equalIgnoringCase_iff]

theorem any_isOn_iff :
    (value? env "ROS_SECURITY_ENABLE").any isOn = true ↔ AsksForSecurity env := by
  simp only [Option.any_eq_true, value?_eq_some_iff, isOn_iff, AsksForSecurity]
  refine exists_congr fun v => ?_
  constructor
  · rintro ⟨⟨hv, -⟩, hon⟩
    exact ⟨hv, hon⟩
  · rintro ⟨hv, hon⟩
    refine ⟨⟨hv, ?_⟩, hon⟩
    rintro rfl
    exact absurd (isOn_iff.mpr hon) (by decide)

theorem isSome_security_iff : (ofEnvironment env).security.isSome = true ↔ AsksForSecurity env := by
  rw [← any_isOn_iff, ofEnvironment]
  simp only
  split_ifs with hon
  · simp [hon]
  · simp [hon]

theorem enclave_of_security (hsec : (ofEnvironment env).security = some sec) :
    sec.enclave = (ofEnvironment env).enclave := by
  rw [ofEnvironment, Option.ite_none_right_eq_some, Option.some_inj] at hsec
  obtain ⟨-, rfl⟩ := hsec
  rfl

/-- Every environment gives settings, and they are those of the environment without its
empty variables.  A listener waits for the number of milliseconds that is asked for or, if
that is none at all, a tenth of a second, so it never spins.  There are security settings
exactly if security is asked for, and they are about the enclave of the participant. -/
theorem ofEnvironment_total (env : Environment) :
    let settings := ofEnvironment env
    settings = ofEnvironment (Environment.withoutEmpty env) ∧
      (∀ n, AsksToPoll env n → settings.pollMilliseconds = n) ∧
      ((∀ n, ¬ AsksToPoll env n) → settings.pollMilliseconds = 100) ∧
      settings.pollMilliseconds ≠ 0 ∧
      (settings.security.isSome = true ↔ AsksForSecurity env) ∧
      ∀ sec, settings.security = some sec → sec.enclave = settings.enclave := by
  refine ⟨?empty, fun n => pollMilliseconds_of_asks, pollMilliseconds_of_not_asks,
    pollMilliseconds_ne_zero env, isSome_security_iff, fun sec => enclave_of_security⟩
  case empty =>
    exact ofEnvironment_congr (funext fun name => (value?_withoutEmpty env name).symm)

/-- Leading zeros do not count towards the 64 bits. -/
example : milliseconds? "+00000000000000000000000025" = some 25 := by
  decide

end Settings

end DiscoveryGraph
