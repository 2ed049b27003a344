import DiscoveryGraph.Proofs.Text.Utf8
import DiscoveryGraph.Qos.Reason
import Mathlib.Data.List.Infix

/-!
# Writes past the end of a buffer

A bounded buffer cuts each text that is written into it for itself, at the last character
boundary that still fits.  So it begins with as much of all that was written as fits into
it.  It need not end there: where a character of several bytes was cut off, up to three
bytes stay free, and a text that is written later gets in if its first character is short
enough.  The buffer holds the longest beginning of the whole exactly if there is no such
late text.
-/

namespace DiscoveryGraph.Reason

/-! ## Bytes of characters -/

/-- The number of bytes that characters take. -/
def size : List Char → Nat
  | [] => 0
  | c :: cs => c.utf8Size + size cs

@[simp] theorem size_nil : size [] = 0 := rfl

@[simp] theorem size_cons (c : Char) (cs : List Char) : size (c :: cs) = c.utf8Size + size cs := rfl

theorem utf8ByteSize_eq_size (s : String) : s.utf8ByteSize = size s.toList := by
  rw [← Utf8.length_encode, Utf8.encode_eq_flatMap]
  induction s.toList with
  | nil => rfl
  | cons c cs ih =>
      rw [List.flatMap_cons, List.length_append, String.length_utf8EncodeChar, ih, size_cons]

/-! ## The longest beginning that fits -/

/-- Of the beginnings of `whole` that keep within the limit, `kept` is the longest. -/
structure LongestBeginning (limit : Option Nat) (whole kept : String) : Prop where
  begins : kept.toList <+: whole.toList
  fits : ∀ n ∈ limit, kept.utf8ByteSize ≤ n
  longest : ∀ other : String, other.toList <+: whole.toList →
    (∀ n ∈ limit, other.utf8ByteSize ≤ n) → other.toList <+: kept.toList

theorem LongestBeginning.unique {limit : Option Nat} {whole kept kept' : String}
    (h : LongestBeginning limit whole kept) (h' : LongestBeginning limit whole kept') :
    kept = kept' := by
  have hle := h'.longest kept h.begins h.fits
  have hge := h.longest kept' h'.begins h'.fits
  exact String.toList_injective (hle.eq_of_length_le hge.length_le)

variable {n : Nat} {xs cs : List Char}

theorem fitting_isPrefix (n : Nat) (cs : List Char) : fitting n cs <+: cs := by
  induction cs generalizing n with
  | nil => exact List.prefix_rfl
  | cons c cs ih =>
      rw [fitting]
      split
      · exact List.prefix_cons_inj c |>.mpr (ih (n - c.utf8Size))
      · exact List.nil_prefix

theorem size_fitting_le (n : Nat) (cs : List Char) : size (fitting n cs) ≤ n := by
  induction cs generalizing n with
  | nil => exact Nat.zero_le n
  | cons c cs ih =>
      rw [fitting]
      split
      · have hrest := ih (n - c.utf8Size)
        rw [size_cons]
        omega
      · exact Nat.zero_le n

theorem isPrefix_fitting (hxs : xs <+: cs) (hsize : size xs ≤ n) : xs <+: fitting n cs := by
  induction cs generalizing n xs with
  | nil => exact hxs
  | cons c cs ih =>
      cases xs with
      | nil => exact List.nil_prefix
      | cons x xs =>
          obtain ⟨rfl, hrest⟩ := List.cons_prefix_cons.mp hxs
          rw [size_cons] at hsize
          rw [fitting, if_pos (by omega)]
          exact List.cons_prefix_cons.mpr ⟨rfl, ih hrest (by omega)⟩

/-- A character that is cut off has at most four bytes. -/
theorem lt_size_fitting_add (h : n < size cs) : n < size (fitting n cs) + 4 := by
  induction cs generalizing n with
  | nil => exact absurd h (Nat.not_lt_zero n)
  | cons c cs ih =>
      have hfour : c.utf8Size ≤ 4 := c.utf8Size_le_four
      rw [size_cons] at h
      rw [fitting]
      split
      · have hrest := ih (n := n - c.utf8Size) (by omega)
        rw [size_cons]
        omega
      · rw [size_nil]
        omega

theorem fitting_append (h : size xs ≤ n) (ys : List Char) :
    fitting n (xs ++ ys) = xs ++ fitting (n - size xs) ys := by
  induction xs generalizing n with
  | nil => rfl
  | cons x xs ih =>
      rw [size_cons] at h ⊢
      rw [List.cons_append, fitting, if_pos (by omega), ih (by omega), List.cons_append,
        Nat.sub_sub]

theorem fitting_append_of_lt (h : n < size xs) (ys : List Char) :
    fitting n (xs ++ ys) = fitting n xs := by
  induction xs generalizing n with
  | nil => exact absurd h (Nat.not_lt_zero n)
  | cons x xs ih =>
      rw [size_cons] at h
      rw [List.cons_append, fitting, fitting]
      split
      · rw [ih (by omega)]
      · rfl

theorem fitting_eq_nil_iff : fitting n cs = [] ↔ ∀ c ∈ cs.head?, n < c.utf8Size := by
  cases cs with
  | nil => simp [fitting]
  | cons c cs => simp [fitting]

/-! ## Cutting a text -/

variable {limit : Option Nat} {s : String}

theorem longestBeginning_cut (limit : Option Nat) (s : String) :
    LongestBeginning limit s (cut s limit) := by
  cases limit with
  | none => exact ⟨List.prefix_rfl, by simp, fun other hother _ => hother⟩
  | some n =>
      refine ⟨?_, ?_, ?_⟩
      · rw [cut, String.toList_ofList]
        exact fitting_isPrefix n s.toList
      · intro m hm
        obtain rfl := Option.mem_some.mp hm
        rw [utf8ByteSize_eq_size, cut, String.toList_ofList]
        exact size_fitting_le n s.toList
      · intro other hother hfits
        rw [cut, String.toList_ofList]
        exact isPrefix_fitting hother (utf8ByteSize_eq_size other ▸ hfits n rfl)

theorem cut_append (h : ∀ n ∈ limit, s.utf8ByteSize ≤ n) (t : String) :
    cut (s ++ t) limit = s ++ cut t (limit.map (· - s.utf8ByteSize)) := by
  cases limit with
  | none => rfl
  | some n =>
      have hsize : size s.toList ≤ n := utf8ByteSize_eq_size s ▸ h n rfl
      apply String.toList_injective
      simp only [cut, Option.map_some, String.toList_append, String.toList_ofList,
        fitting_append hsize, utf8ByteSize_eq_size]

theorem cut_append_of_lt (h : n < s.utf8ByteSize) (t : String) :
    cut (s ++ t) (some n) = cut s (some n) := by
  rw [utf8ByteSize_eq_size] at h
  rw [cut, cut, String.toList_append, fitting_append_of_lt h]

theorem cut_of_fits (h : ∀ n ∈ limit, s.utf8ByteSize ≤ n) : cut s limit = s := by
  have hcut := longestBeginning_cut limit s
  have hself : LongestBeginning limit s s :=
    ⟨List.prefix_rfl, h, fun other hother _ => hother⟩
  exact hcut.unique hself

theorem cut_eq_empty_iff : cut s (some n) = "" ↔ ∀ c ∈ s.toList.head?, n < c.utf8Size := by
  rw [← fitting_eq_nil_iff, ← String.toList_inj, cut, String.toList_ofList]
  rfl

theorem utf8ByteSize_cut_le (n : Nat) (s : String) : (cut s (some n)).utf8ByteSize ≤ n :=
  (longestBeginning_cut (some n) s).fits n rfl

theorem lt_utf8ByteSize_cut_add (h : n < s.utf8ByteSize) :
    n < (cut s (some n)).utf8ByteSize + 4 := by
  rw [utf8ByteSize_eq_size] at h ⊢
  rw [cut, String.toList_ofList]
  exact lt_size_fitting_add h

/-! ## Several writes -/

variable {texts : List String} {text : String}

theorem room_write (r : Reason) (s : String) :
    (r.write s).room = r.room.map (· - (cut s r.room).utf8ByteSize) := by
  cases hcapacity : r.capacity with
  | none => simp [room, write, hcapacity]
  | some capacity =>
      simp only [room, write, hcapacity, Option.map_some, String.utf8ByteSize_append, Nat.sub_sub,
        Nat.add_assoc]

theorem room_write_of_fits {r : Reason} (h : ∀ n ∈ r.room, s.utf8ByteSize ≤ n) :
    (r.write s).room = r.room.map (· - s.utf8ByteSize) := by
  rw [room_write, cut_of_fits h]

theorem isPrefix_text_writeAll (r : Reason) (texts : List String) :
    r.text.toList <+: (r.writeAll texts).text.toList := by
  induction texts generalizing r with
  | nil => exact List.prefix_rfl
  | cons s texts ih =>
      have hwrite : r.text.toList <+: (r.write s).text.toList := by
        rw [write, String.toList_append]
        exact List.prefix_append _ _
      exact hwrite.trans (ih (r.write s))

theorem write_eq_self (r : Reason) (h : cut s r.room = "") : r.write s = r := by
  rw [write, h, String.append_empty]

theorem write_empty (r : Reason) : r.write "" = r :=
  write_eq_self r (cut_of_fits fun n _ => Nat.zero_le n)

/-- Nothing is added exactly if nothing of any text fits. -/
theorem text_writeAll_eq_text_iff (r : Reason) (texts : List String) :
    (r.writeAll texts).text = r.text ↔ ∀ s ∈ texts, cut s r.room = "" := by
  induction texts generalizing r with
  | nil => simp [writeAll]
  | cons s texts ih =>
      have hstep : r.writeAll (s :: texts) = (r.write s).writeAll texts := rfl
      rw [hstep, List.forall_mem_cons]
      constructor
      · intro h
        have hnothing : cut s r.room = "" := by
          have hprefix := isPrefix_text_writeAll (r.write s) texts
          rw [h, write, String.toList_append] at hprefix
          have hlength := hprefix.length_le
          rw [List.length_append] at hlength
          apply String.toList_injective
          exact List.eq_nil_of_length_eq_zero (by omega)
        rw [write_eq_self r hnothing, ih r] at h
        exact ⟨hnothing, h⟩
      · rintro ⟨hnothing, hrest⟩
        rw [write_eq_self r hnothing, ih r]
        exact hrest

theorem utf8ByteSize_writeAll_le (r : Reason) (texts : List String) {capacity : Nat}
    (hcapacity : r.capacity = some capacity) (h : r.text.utf8ByteSize ≤ capacity - 1) :
    (r.writeAll texts).text.utf8ByteSize ≤ capacity - 1 := by
  induction texts generalizing r with
  | nil => exact h
  | cons s texts ih =>
      have hroom : r.room = some (capacity - 1 - r.text.utf8ByteSize) := by
        rw [room, hcapacity, Option.map_some]
      have hcut := utf8ByteSize_cut_le (capacity - 1 - r.text.utf8ByteSize) s
      apply ih (r.write s) hcapacity
      rw [write, hroom, String.utf8ByteSize_append]
      omega

/-- A text that is written when more than `n` bytes were written before. -/
def Late (n : Nat) (texts : List String) (text : String) : Prop :=
  ∃ before after, texts = before ++ text :: after ∧ n < (String.join before).utf8ByteSize

theorem late_cons_iff (h : s.utf8ByteSize ≤ n) :
    Late n (s :: texts) text ↔ Late (n - s.utf8ByteSize) texts text := by
  constructor
  · rintro ⟨before, after, hsplit, hlate⟩
    cases before with
    | nil => exact absurd hlate (Nat.not_lt_zero n)
    | cons first before =>
        obtain ⟨rfl, hrest⟩ := List.cons.inj hsplit
        rw [String.join_cons, String.utf8ByteSize_append] at hlate
        exact ⟨before, after, hrest, by omega⟩
  · rintro ⟨before, after, rfl, hlate⟩
    refine ⟨s :: before, after, rfl, ?_⟩
    rw [String.join_cons, String.utf8ByteSize_append]
    omega

theorem late_cons_iff_of_lt (h : n < s.utf8ByteSize) :
    Late n (s :: texts) text ↔ text ∈ texts := by
  constructor
  · rintro ⟨before, after, hsplit, hlate⟩
    cases before with
    | nil => exact absurd hlate (Nat.not_lt_zero n)
    | cons first before =>
        rw [(List.cons.inj hsplit).2]
        exact List.mem_append_right before List.mem_cons_self
  · intro hmem
    obtain ⟨before, after, rfl⟩ := List.append_of_mem hmem
    refine ⟨s :: before, after, rfl, ?_⟩
    rw [String.join_cons, String.utf8ByteSize_append]
    omega

/-- No late text gets in: the first character of each is longer than what is left free
after `kept`. -/
def NoneGetsIn (limit : Option Nat) (texts : List String) (kept : String) : Prop :=
  ∀ n ∈ limit, ∀ text, Late n texts text →
    ∀ c ∈ text.toList.head?, n < kept.utf8ByteSize + c.utf8Size

theorem noneGetsIn_cons_iff (h : ∀ n ∈ limit, s.utf8ByteSize ≤ n) (kept : String) :
    NoneGetsIn limit (s :: texts) (s ++ kept) ↔
      NoneGetsIn (limit.map (· - s.utf8ByteSize)) texts kept := by
  cases limit with
  | none => simp [NoneGetsIn]
  | some n =>
      have hfits : s.utf8ByteSize ≤ n := h n rfl
      simp only [NoneGetsIn, Option.map_some, Option.mem_some, forall_eq', late_cons_iff hfits,
        String.utf8ByteSize_append]
      refine forall₄_congr fun text _ c _ => ?_
      omega

theorem noneGetsIn_of_fits (h : ∀ n ∈ limit, (String.join texts).utf8ByteSize ≤ n)
    (kept : String) : NoneGetsIn limit texts kept := by
  rintro n hn text ⟨before, after, rfl, hlate⟩
  have hfits := h n hn
  rw [String.join_append, String.utf8ByteSize_append] at hfits
  omega

theorem write_append {r : Reason} (h : ∀ n ∈ r.room, s.utf8ByteSize ≤ n) (t : String) :
    r.write (s ++ t) = (r.write s).write t := by
  have htext : (r.write s).text = r.text ++ s := by
    rw [write, cut_of_fits h]
  rw [write, write, room_write_of_fits h, htext, cut_append h, String.append_assoc]
  rfl

theorem write_append_of_lt {r : Reason} (hroom : r.room = some n) (h : n < s.utf8ByteSize)
    (t : String) : r.write (s ++ t) = r.write s := by
  rw [write, hroom, cut_append_of_lt h, write, hroom]

/-- However much is written, the buffer begins as if all had been written at once. -/
theorem write_join_isPrefix (r : Reason) (texts : List String) :
    (r.write (String.join texts)).text.toList <+: (r.writeAll texts).text.toList := by
  induction texts generalizing r with
  | nil =>
      have hnothing : r.write (String.join []) = r := write_empty r
      rw [hnothing]
      exact List.prefix_rfl
  | cons s texts ih =>
      rw [String.join_cons]
      by_cases hfits : ∀ n ∈ r.room, s.utf8ByteSize ≤ n
      · rw [write_append hfits]
        exact ih (r.write s)
      · push Not at hfits
        obtain ⟨n, hroom, hlt⟩ := hfits
        rw [write_append_of_lt hroom hlt]
        exact isPrefix_text_writeAll (r.write s) texts

theorem writeAll_eq_write_join_iff (r : Reason) (texts : List String) :
    (r.writeAll texts).text = (r.write (String.join texts)).text ↔
      NoneGetsIn r.room texts (cut (String.join texts) r.room) := by
  induction texts generalizing r with
  | nil =>
      have hnothing : r.write (String.join []) = r := write_empty r
      rw [hnothing]
      have hfits : ∀ n ∈ r.room, (String.join []).utf8ByteSize ≤ n := fun n _ => Nat.zero_le n
      exact iff_of_true rfl (noneGetsIn_of_fits hfits _)
  | cons s texts ih =>
      have hstep : r.writeAll (s :: texts) = (r.write s).writeAll texts := rfl
      rw [hstep, String.join_cons]
      by_cases hfits : ∀ n ∈ r.room, s.utf8ByteSize ≤ n
      · rw [write_append hfits, cut_append hfits, noneGetsIn_cons_iff hfits, ih,
          room_write_of_fits hfits]
      · push Not at hfits
        obtain ⟨n, hroom, hlt⟩ := hfits
        have hafter : (r.write s).room = some (n - (cut s (some n)).utf8ByteSize) := by
          rw [room_write, hroom, Option.map_some]
        have hle : (cut s (some n)).utf8ByteSize ≤ n := utf8ByteSize_cut_le n s
        rw [write_append_of_lt hroom hlt, text_writeAll_eq_text_iff, hafter, hroom,
          cut_append_of_lt hlt]
        simp only [NoneGetsIn, Option.mem_some, forall_eq', late_cons_iff_of_lt hlt,
          cut_eq_empty_iff]
        refine forall₄_congr fun text _ c _ => ?_
        omega

/-- What a buffer of this capacity holds when it was empty and the texts were written into
it one after the other. -/
def written (capacity : Option Nat) (texts : List String) : String :=
  ((⟨"", capacity⟩ : Reason).writeAll texts).text

theorem written_singleton (capacity : Option Nat) (s : String) :
    written capacity [s] = cut s (capacity.map (· - 1)) :=
  String.empty_append

theorem utf8ByteSize_written_le {capacity : Option Nat} (hn : n ∈ capacity.map (· - 1))
    (texts : List String) : (written capacity texts).utf8ByteSize ≤ n := by
  obtain ⟨bytes, hbytes, rfl⟩ := Option.map_eq_some_iff.mp hn
  exact utf8ByteSize_writeAll_le ⟨"", capacity⟩ texts hbytes (Nat.zero_le _)

/-- A buffer into which several texts are written begins with the longest beginning of the
whole that fits into it, and holds at most three bytes more, within its limit.  It holds
that beginning and nothing else exactly if no late text gets in. -/
theorem longestBeginning_written_iff (capacity : Option Nat) (texts : List String) :
    ∃ kept, LongestBeginning (capacity.map (· - 1)) (String.join texts) kept ∧
      kept.toList <+: (written capacity texts).toList ∧
      (written capacity texts).utf8ByteSize ≤ kept.utf8ByteSize + 3 ∧
      (∀ n ∈ capacity.map (· - 1), (written capacity texts).utf8ByteSize ≤ n) ∧
      (LongestBeginning (capacity.map (· - 1)) (String.join texts) (written capacity texts) ↔
        NoneGetsIn (capacity.map (· - 1)) texts kept) := by
  set limit := capacity.map (· - 1)
  set whole := String.join texts
  have hatOnce : written capacity [whole] = cut whole limit := written_singleton capacity whole
  have hiff : written capacity texts = cut whole limit ↔
      NoneGetsIn limit texts (cut whole limit) := by
    rw [← hatOnce]
    exact writeAll_eq_write_join_iff ⟨"", capacity⟩ texts
  refine ⟨cut whole limit, longestBeginning_cut limit whole, ?_, ?_,
    fun n hn => utf8ByteSize_written_le hn texts, ?_⟩
  · rw [← hatOnce]
    exact write_join_isPrefix ⟨"", capacity⟩ texts
  · by_cases hfits : ∀ n ∈ limit, whole.utf8ByteSize ≤ n
    · rw [hiff.mpr (noneGetsIn_of_fits hfits _)]
      omega
    · push Not at hfits
      obtain ⟨n, hn, hlt⟩ := hfits
      have hbound := utf8ByteSize_written_le hn texts
      have hfree := lt_utf8ByteSize_cut_add hlt
      rw [hn]
      omega
  · rw [← hiff]
    constructor
    · intro h
      exact h.unique (longestBeginning_cut limit whole)
    · intro h
      rw [h]
      exact longestBeginning_cut limit whole

theorem not_forall_longestBeginning_written :
    ¬ ∀ (capacity : Option Nat) (texts : List String),
      LongestBeginning (capacity.map (· - 1)) (String.join texts) (written capacity texts) := by
  intro hclaim
  have hbegins := (hclaim (some 3) ["aé", "b"]).begins
  exact absurd hbegins (by decide)

end DiscoveryGraph.Reason
