import DiscoveryGraph.Proofs.Text.Utf8
import DiscoveryGraph.TypeHash.UserData
import Mathlib.Data.List.TakeWhile

/-!
# User data as a map

The tokens of user data are what stands between the separators.  A token binds a key if some
bytes stand before its first equals sign, and the key is what lossy reading makes of them.
A key has the value of the last token that binds it.  So user data that follow other user
data override them, and pairs that were written one after another are read as the map in
which later pairs override earlier ones.
-/

namespace DiscoveryGraph.UserData

variable {token value front : List UInt8} {key : String}

/-! ## Tokens -/

theorem tokens_eq_splitOn (data : List UInt8) : tokens data = data.splitOn separator := by
  induction data with
  | nil => rw [tokens, List.splitOn_nil]
  | cons b rest ih =>
      rw [tokens, List.splitOn_cons_eq_if_modifyHead, ih]
      simp only [beq_iff_eq]

theorem tokens_append (p q : List UInt8) :
    tokens (p ++ separator :: q) = tokens p ++ tokens q := by
  simp only [tokens_eq_splitOn, List.splitOn_append_cons_self]

theorem tokens_append_separator (htoken : separator ∉ token) (rest : List UInt8) :
    tokens (token ++ separator :: rest) = token :: tokens rest := by
  simp only [tokens_eq_splitOn, List.splitOn_append_cons_self_of_not_mem htoken]

/-! ## Pairs -/

theorem bne_equals_of_not_mem (hfront : equals ∉ front) : ∀ b ∈ front, (b != equals) = true := by
  intro b hb
  have hne : b ≠ equals := fun heq => hfront (heq ▸ hb)
  simpa using hne

theorem pair?_of_not_mem (htoken : equals ∉ token) : pair? token = none := by
  have hnone : token.dropWhile (· != equals) = [] :=
    List.dropWhile_eq_nil_iff.mpr (bne_equals_of_not_mem htoken)
  rw [pair?, hnone]

theorem pair?_cons_equals (value : List UInt8) : pair? (equals :: value) = none := rfl

theorem pair?_append_equals (hfront : equals ∉ front) (hne : front ≠ [])
    (value : List UInt8) : pair? (front ++ equals :: value) = some (front, value) := by
  have hall := bne_equals_of_not_mem hfront
  rw [pair?, List.dropWhile_append_of_pos hall, List.takeWhile_append_of_pos hall]
  simp [hne]

theorem pair?_eq_some_iff :
    pair? token = some (front, value) ↔
      front ≠ [] ∧ equals ∉ front ∧ token = front ++ equals :: value := by
  constructor
  · intro hpair
    have hmem : equals ∈ token := by
      by_contra hnot
      rw [pair?_of_not_mem hnot] at hpair
      contradiction
    obtain ⟨bytes, rest, rfl, hbytes⟩ := List.eq_append_cons_of_mem hmem
    have hne : bytes ≠ [] := by
      rintro rfl
      rw [List.nil_append, pair?_cons_equals] at hpair
      contradiction
    rw [pair?_append_equals hbytes hne] at hpair
    obtain ⟨rfl, rfl⟩ := Prod.mk.inj (Option.some.inj hpair)
    exact ⟨hne, hbytes, rfl⟩
  · rintro ⟨hne, hfront, rfl⟩
    exact pair?_append_equals hfront hne value

theorem pairs_append_separator (htoken : separator ∉ token) (rest : List UInt8) :
    pairs (token ++ separator :: rest) = (pair? token).toList ++ pairs rest := by
  rw [pairs, tokens_append_separator htoken, List.filterMap_cons]
  cases pair? token <;> rfl

/-- The token has `value` after its first equals sign, and before it some bytes that read as
`key`. -/
def Binds (token : List UInt8) (key : String) (value : List UInt8) : Prop :=
  ∃ front, front ≠ [] ∧ equals ∉ front ∧ token = front ++ equals :: value ∧
    Utf8.decodeLossy front = key

/-- What the token says of the key. -/
def valueUnder? (key : String) (token : List UInt8) : Option (List UInt8) :=
  (pair? token).bind fun pair => if Utf8.decodeLossy pair.1 = key then some pair.2 else none

theorem valueUnder?_eq_some_iff : valueUnder? key token = some value ↔ Binds token key value := by
  simp only [valueUnder?, Binds, Option.bind_eq_some_iff, Prod.exists, pair?_eq_some_iff,
    Option.ite_none_right_eq_some, Option.some_inj]
  constructor
  · rintro ⟨front, rest, ⟨hne, hfront, rfl⟩, hkey, rfl⟩
    exact ⟨front, hne, hfront, rfl, hkey⟩
  · rintro ⟨front, hne, hfront, rfl, hkey⟩
    exact ⟨front, value, ⟨hne, hfront, rfl⟩, hkey, rfl⟩

theorem valueUnder?_eq_none_iff : valueUnder? key token = none ↔ ∀ v, ¬ Binds token key v := by
  simp only [Option.eq_none_iff_forall_not_mem, Option.mem_def, valueUnder?_eq_some_iff]

/-! ## The last binding -/

theorem findSomeRev?_cons {α β : Type} (f : α → Option β) (a : α) (l : List α) :
    (a :: l).findSomeRev? f = (l.findSomeRev? f).or (f a) := by
  rw [List.findSomeRev?]
  cases l.findSomeRev? f <;> rfl

theorem findSomeRev?_eq_some_iff {α β : Type} {f : α → Option β} {l : List α} {b : β} :
    l.findSomeRev? f = some b ↔
      ∃ before a after, l = before ++ a :: after ∧ f a = some b ∧ ∀ x ∈ after, f x = none := by
  rw [List.findSomeRev?_eq_findSome?_reverse, List.findSome?_eq_some_iff]
  constructor
  · rintro ⟨after, a, before, hl, hb, hafter⟩
    have hsplit : l = before.reverse ++ a :: after.reverse := by
      rw [List.reverse_eq_iff.mp hl]
      simp
    exact ⟨before.reverse, a, after.reverse, hsplit, hb, by simpa using hafter⟩
  · rintro ⟨before, a, after, rfl, hb, hafter⟩
    exact ⟨after.reverse, a, before.reverse, by simp, hb, by simpa using hafter⟩

theorem getElem?_enter (map : Map) (pair : List UInt8 × List UInt8) (key : String) :
    (enter map pair)[key]? = if Utf8.decodeLossy pair.1 = key then some pair.2 else map[key]? := by
  rw [enter, Std.ExtTreeMap.getElem?_insert]
  simp only [Std.LawfulEqCmp.compare_eq_iff_eq]

/-- A key has the value of the last token that binds it, and if there is none the value that
it had. -/
theorem getElem?_foldl_enter (ts : List (List UInt8)) (map : Map) (key : String) :
    ((ts.filterMap pair?).foldl enter map)[key]? =
      (ts.findSomeRev? (valueUnder? key)).or map[key]? := by
  induction ts generalizing map with
  | nil => rfl
  | cons token ts ih =>
      rw [findSomeRev?_cons, Option.or_assoc]
      cases hpair : pair? token with
      | none =>
          have hunder : valueUnder? key token = none := by rw [valueUnder?, hpair, Option.bind_none]
          rw [List.filterMap_cons_none hpair, ih, hunder, Option.none_or]
      | some pair =>
          have hunder : (valueUnder? key token).or map[key]? = (enter map pair)[key]? := by
            rw [valueUnder?, hpair, Option.bind_some, getElem?_enter]
            split <;> rfl
          rw [List.filterMap_cons_some hpair, List.foldl_cons, ih, hunder]

theorem getElem?_parse (data : List UInt8) (key : String) :
    (parse data)[key]? = (tokens data).findSomeRev? (valueUnder? key) := by
  have hempty : (∅ : Map)[key]? = none := Std.ExtTreeMap.getElem?_empty
  rw [parse, pairs, getElem?_foldl_enter, hempty, Option.or_none]

theorem getElem?_parse_eq_some_iff {data : List UInt8} :
    (parse data)[key]? = some value ↔
      ∃ before token after, data.splitOn separator = before ++ token :: after ∧
        Binds token key value ∧ ∀ later ∈ after, ∀ v, ¬ Binds later key v := by
  simp only [getElem?_parse, tokens_eq_splitOn, findSomeRev?_eq_some_iff,
    valueUnder?_eq_some_iff, valueUnder?_eq_none_iff]

theorem getElem?_parse_append (p q : List UInt8) (key : String) :
    (parse (p ++ separator :: q))[key]? = (parse q)[key]?.or (parse p)[key]? := by
  simp only [getElem?_parse, tokens_append, List.findSomeRev?_eq_findSome?_reverse,
    List.reverse_append, List.findSome?_append]

/-! ## Writing pairs -/

/-- A pair that can be written: no separator ends it early, and its first equals sign is the
one after its key. -/
structure Writable (entry : String × List UInt8) : Prop where
  key_ne : entry.1 ≠ ""
  equals_not_mem : '=' ∉ entry.1.toList
  separator_not_mem_key : ';' ∉ entry.1.toList
  separator_not_mem_value : separator ∉ entry.2

/-- The bytes of a pair. -/
def written (entry : String × List UInt8) : List UInt8 :=
  Utf8.encode entry.1 ++ equals :: entry.2 ++ [separator]

theorem pairs_written_append {entry : String × List UInt8} (hentry : Writable entry)
    (rest : List UInt8) :
    pairs (written entry ++ rest) = (Utf8.encode entry.1, entry.2) :: pairs rest := by
  have hascii : '='.toNat < 128 ∧ ';'.toNat < 128 := by decide
  have hequals : equals ∉ Utf8.encode entry.1 :=
    mt (Utf8.ascii_mem_encode_iff hascii.1 entry.1).mp hentry.equals_not_mem
  have hkey : separator ∉ Utf8.encode entry.1 :=
    mt (Utf8.ascii_mem_encode_iff hascii.2 entry.1).mp hentry.separator_not_mem_key
  have htoken : separator ∉ Utf8.encode entry.1 ++ equals :: entry.2 := by
    have hmark : separator ≠ equals := by decide
    simp [hkey, hmark, hentry.separator_not_mem_value]
  have hne : Utf8.encode entry.1 ≠ [] := mt Utf8.encode_eq_nil_iff.mp hentry.key_ne
  rw [written, List.append_assoc _ [separator], List.singleton_append,
    pairs_append_separator htoken, pair?_append_equals hequals hne]
  rfl

/-- Pairs are read in the order in which they were written. -/
theorem pairs_flatMap_written {entries : List (String × List UInt8)}
    (hentries : ∀ entry ∈ entries, Writable entry) :
    pairs (entries.flatMap written) =
      entries.map fun entry => (Utf8.encode entry.1, entry.2) := by
  induction entries with
  | nil => rfl
  | cons entry entries ih =>
      obtain ⟨hentry, hrest⟩ := List.forall_mem_cons.mp hentries
      rw [List.flatMap_cons, pairs_written_append hentry, ih hrest, List.map_cons]

theorem parse_flatMap_written {entries : List (String × List UInt8)}
    (hentries : ∀ entry ∈ entries, Writable entry) :
    parse (entries.flatMap written) =
      entries.foldl (fun map entry => map.insert entry.1 entry.2) ∅ := by
  simp only [parse, pairs_flatMap_written hentries, List.foldl_map, enter,
    Utf8.decodeLossy_encode]

/-- A key has the value of the last token that binds it, and no other key has one.  So user
data override those that they follow, and pairs that were written are read as the map in
which later pairs override earlier ones. -/
theorem parse_keeps_last_pairs :
    (∀ data (key : String) value, (parse data)[key]? = some value ↔
      ∃ before token after, data.splitOn separator = before ++ token :: after ∧
        Binds token key value ∧ ∀ later ∈ after, ∀ v, ¬ Binds later key v) ∧
    (∀ p q (key : String),
      (parse (p ++ separator :: q))[key]? = (parse q)[key]?.or (parse p)[key]?) ∧
    ∀ entries : List (String × List UInt8), (∀ entry ∈ entries, Writable entry) →
      parse (entries.flatMap written) =
        entries.foldl (fun map entry => map.insert entry.1 entry.2) ∅ :=
  ⟨fun _ _ _ => getElem?_parse_eq_some_iff, getElem?_parse_append,
    fun _ => parse_flatMap_written⟩

/-- Three pairs, of which the first and the last have one key. -/
def overridingEntries : List (String × List UInt8) :=
  [("a", [1]), ("b", [equals]), ("a", [])]

/-- Keys that are no text may read alike, and then they are one key. -/
theorem parse_overridingEntries :
    (parse [0xFE, equals, 1, separator, 0xFF, equals, 2])["\uFFFD"]? = some [2] ∧
      parse (overridingEntries.flatMap written) =
        ((∅ : Map).insert "b" [equals]).insert "a" [] := by
  obtain ⟨hlast, -, hwritten⟩ := parse_keeps_last_pairs
  have hkey : Utf8.decodeLossy [0xFF] = "\uFFFD" := by
    have hchar : Utf8.decodeChar? [0xFF] = none := by decide
    simp [Utf8.decodeLossy, Utf8.decodeLossyChars, hchar]
  have hbinds : Binds [0xFF, equals, 2] "\uFFFD" [2] :=
    ⟨[0xFF], by decide, by decide, rfl, hkey⟩
  have hentries : ∀ entry ∈ overridingEntries, Writable entry := by
    simp only [overridingEntries, List.forall_mem_cons]
    refine ⟨?_, ?_, ?_, by simp⟩
    all_goals exact ⟨by decide, by decide, by decide, by decide⟩
  refine ⟨(hlast _ _ _).mpr ⟨[[0xFE, equals, 1]], _, [], rfl, hbinds, by simp⟩, ?_⟩
  rw [hwritten overridingEntries hentries]
  decide

end DiscoveryGraph.UserData
