import DiscoveryGraph.Cdr.Reader
import DiscoveryGraph.Proofs.Cdr.Writing

/-!
# What readers accept

A reader that consumes a field of some layout stops behind it and has taken bytes
that fit the layout.  Every reader of a field is described by an equivalence: it
gives a value exactly when the value can be written and the bytes at hand fit
the layout of the value.  Read from right to left this says that written messages
are read back, from left to right that nothing else is accepted.

The early check of a count never decides: if the elements are all there, the rest
of the body can hold them.
-/

namespace DiscoveryGraph.Cdr

variable {value : Type}

theorem Action.runFrom_bind_eq_ok_iff {state other : Type}
    {first : Action state value} {second : value → Action state other}
    {s next : state} {y : other} :
    (first >>= second).runFrom s = (.ok y, next) ↔
      ∃ x mid, first.runFrom s = (.ok x, mid) ∧ (second x).runFrom mid = (.ok y, next) := by
  rw [Action.runFrom_bind]
  rcases first.runFrom s with ⟨_ | x, mid⟩
  · simp
  · simp

/-! ## Consuming a layout -/

/-- Consuming bytes that fit the layout leads from `r` to `next`. -/
def Reader.Takes (r : Reader) (l : Layout) (next : Reader) : Prop :=
  ∃ data, r.unread = data ++ next.unread ∧ Fits data (l.slots r.offset) ∧
    next.offset = r.offset + data.length

namespace Reader

theorem Takes.offset_eq {r next : Reader} {l : Layout} (h : r.Takes l next) :
    next.offset = r.offset + (l.slots r.offset).length := by
  obtain ⟨data, -, hfits, hoffset⟩ := h
  rw [hoffset, hfits.length_eq]

theorem Takes.remaining_eq {r next : Reader} {l : Layout} (h : r.Takes l next) :
    r.remaining = (l.slots r.offset).length + next.remaining := by
  obtain ⟨data, hunread, hfits, -⟩ := h
  rw [remaining, hunread, List.length_append, hfits.length_eq, remaining]

theorem takes_empty_iff {r next : Reader} : r.Takes .empty next ↔ next = r := by
  constructor
  · rintro ⟨data, hunread, hfits, hoffset⟩
    obtain rfl := List.forall₂_nil_right_iff.mp hfits
    cases r
    cases next
    simp_all
  · rintro rfl
    exact ⟨[], rfl, .nil, rfl⟩

theorem takes_append_iff {r next : Reader} {first second : Layout} :
    r.Takes (first ++ second) next ↔ ∃ mid, r.Takes first mid ∧ mid.Takes second next := by
  constructor
  · rintro ⟨data, hunread, hfits, hoffset⟩
    obtain ⟨front, rest, rfl, hfront, hrest⟩ := fits_append_iff.mp hfits
    refine ⟨⟨r.offset + front.length, rest ++ next.unread⟩,
      ⟨front, ?_, hfront, rfl⟩, ⟨rest, rfl, ?_, ?_⟩⟩
    · rw [hunread, List.append_assoc]
    · rw [hfront.length_eq]
      exact hrest
    · rw [hoffset, List.length_append, Nat.add_assoc]
  · rintro ⟨mid, hfirst, hsecond⟩
    have hmid := hfirst.offset_eq
    obtain ⟨front, hunread, hfront, hoffset⟩ := hfirst
    obtain ⟨rest, hunread', hrest, hoffset'⟩ := hsecond
    refine ⟨front ++ rest, ?_, fits_append_iff.mpr ⟨front, rest, rfl, hfront, ?_⟩, ?_⟩
    · rw [hunread, hunread', List.append_assoc]
    · rw [← hmid]
      exact hrest
    · rw [hoffset', hoffset, List.length_append, Nat.add_assoc]

/-- A reader that moves on by `count` bytes takes a layout if it could. -/
theorem takes_advance_iff {r next : Reader} {l : Layout} :
    r.Takes l next ↔
      (l.slots r.offset).length ≤ r.remaining ∧
        Fits (r.unread.take (l.slots r.offset).length) (l.slots r.offset) ∧
        next = r.advance (l.slots r.offset).length := by
  constructor
  · rintro ⟨data, hunread, hfits, hoffset⟩
    rw [← hfits.length_eq, remaining, advance, hunread, List.take_left, List.drop_left]
    refine ⟨by simp, hfits, ?_⟩
    cases next
    simp_all
  · rintro ⟨hlength, hfits, rfl⟩
    refine ⟨_, (List.take_append_drop _ _).symm, hfits, ?_⟩
    rw [remaining] at hlength
    rw [advance, List.length_take, Nat.min_eq_left hlength]

/-- The next multiple is a quotient, rounded up, times the alignment. -/
theorem aligned_eq {alignment : Nat} (h : 0 < alignment) (offset : Nat) :
    aligned offset alignment =
      (if 0 < offset % alignment then offset / alignment + 1 else offset / alignment) *
        alignment := by
  have hdiv := Nat.div_add_mod offset alignment
  have hmod := Nat.mod_lt offset h
  have hquot : (offset + alignment - 1) / alignment =
      (offset % alignment + alignment - 1) / alignment + offset / alignment := by
    have : offset + alignment - 1 =
        (offset % alignment + alignment - 1) + alignment * (offset / alignment) := by omega
    rw [this, Nat.add_mul_div_left _ _ h]
  rw [aligned, hquot]
  split
  · rw [Nat.div_eq_of_lt_le (k := 1) (by omega) (by omega), Nat.add_comm]
  · rw [Nat.div_eq_of_lt (by omega), Nat.zero_add]

/-- The fillers that a reader skips are those that a writer inserts. -/
theorem aligned_sub_eq_padding {alignment : Nat} (h : 1 < alignment) (offset : Nat) :
    aligned offset alignment - offset = Writer.padding offset alignment := by
  have hpos : 0 < alignment := by omega
  have hdiv := Nat.div_add_mod offset alignment
  have hmod := Nat.mod_lt offset hpos
  rw [aligned_eq hpos, Writer.padding]
  split
  · rw [Nat.mod_eq_of_lt (by omega), Nat.succ_mul, Nat.mul_comm]
    omega
  · have hzero : offset % alignment = 0 := by omega
    rw [hzero, Nat.sub_zero, Nat.mod_self, Nat.mul_comm]
    omega

theorem takes_ofBytes_iff {r next : Reader} {data : List UInt8} :
    r.Takes (.ofBytes data) next ↔
      data.length ≤ r.remaining ∧ r.unread.take data.length = data ∧
        next = r.advance data.length := by
  rw [takes_advance_iff, Layout.slots_ofBytes, List.length_map, fits_content_iff]

theorem takes_align_iff {r next : Reader} {alignment : Nat} :
    r.Takes (.align alignment) next ↔
      Writer.padding r.offset alignment ≤ r.remaining ∧
        next = r.advance (Writer.padding r.offset alignment) := by
  rw [takes_advance_iff, Layout.slots_align, List.length_replicate,
    fits_replicate_filler_iff, List.length_take, remaining]
  constructor
  · rintro ⟨hlength, -, hnext⟩
    exact ⟨hlength, hnext⟩
  · rintro ⟨hlength, hnext⟩
    exact ⟨hlength, Nat.min_eq_left hlength, hnext⟩

end Reader

/-! ## Words -/

namespace Word

theorem decode_lt_range {bytes : List UInt8} (h : bytes.length = size) :
    decode bytes < range := by
  obtain ⟨a, b, c, d, rfl⟩ : ∃ a b c d, bytes = [a, b, c, d] := by
    simpa [List.length_eq_four] using h
  have ha := a.toNat_lt
  have hb := b.toNat_lt
  have hc := c.toNat_lt
  have hd := d.toNat_lt
  simp only [decode, List.foldr_cons, List.foldr_nil, range]
  omega

/-- A word is the only form of its value. -/
theorem encode_ofNat_decode {bytes : List UInt8} (h : bytes.length = size) :
    encode (UInt32.ofNat (decode bytes)) = bytes := by
  obtain ⟨a, b, c, d, rfl⟩ : ∃ a b c d, bytes = [a, b, c, d] := by
    simpa [List.length_eq_four] using h
  have ha := a.toNat_lt
  have hb := b.toNat_lt
  have hc := c.toNat_lt
  have hd := d.toNat_lt
  simp [encode, decode, ← UInt8.toNat_inj, Nat.shiftRight_eq_div_pow]
  omega

end Word

namespace Read

variable {r next : Reader}

theorem runFrom_bytes_eq_ok_iff {count : Nat} {data : List UInt8} :
    (bytes count).runFrom r = (.ok data, next) ↔
      data.length = count ∧ r.Takes (.ofBytes data) next := by
  rw [runFrom_bytes, Reader.takes_ofBytes_iff]
  by_cases hcount : count ≤ r.remaining
  · rw [if_pos hcount, Prod.mk.injEq, Except.ok.injEq]
    constructor
    · rintro ⟨rfl, rfl⟩
      have hlength : (r.unread.take count).length = count := by
        rw [List.length_take]
        exact Nat.min_eq_left hcount
      rw [hlength]
      exact ⟨rfl, hcount, rfl, rfl⟩
    · rintro ⟨rfl, -, htake, rfl⟩
      exact ⟨htake, rfl⟩
  · rw [if_neg hcount]
    constructor
    · intro h
      simp at h
    · rintro ⟨rfl, hlength, -⟩
      exact (hcount hlength).elim

theorem runFrom_align_eq_ok_iff {alignment : Nat} {u : Unit} :
    (align alignment).runFrom r = (.ok u, next) ↔ r.Takes (.align alignment) next := by
  rw [runFrom_align, Reader.takes_align_iff]
  by_cases halignment : alignment ≤ 1
  · rw [if_pos halignment, Writer.padding_of_alignment_le_one halignment]
    simp only [Prod.mk.injEq, true_and, Nat.zero_le]
    exact eq_comm
  · rw [if_neg halignment, Reader.aligned_sub_eq_padding (by omega)]
    by_cases hroom : Writer.padding r.offset alignment ≤ r.remaining
    · rw [if_pos hroom, Prod.mk.injEq, and_iff_right rfl, and_iff_right hroom]
      exact eq_comm
    · simp [hroom]

theorem runFrom_word_eq_ok_iff {n : Nat} :
    word.runFrom r = (.ok n, next) ↔
      n < Word.range ∧ r.Takes (.word (UInt32.ofNat n)) next := by
  rw [word, Action.runFrom_bind_eq_ok_iff, Layout.word, Reader.takes_append_iff]
  simp only [unalignedWord, Action.runFrom_bind_eq_ok_iff, runFrom_align_eq_ok_iff,
    runFrom_bytes_eq_ok_iff, Action.runFrom_pure, Prod.mk.injEq, Except.ok.injEq]
  constructor
  · rintro ⟨_, mid, halign, data, _, ⟨hlength, hdata⟩, rfl, rfl⟩
    rw [Word.encode_ofNat_decode hlength]
    exact ⟨Word.decode_lt_range hlength, mid, halign, hdata⟩
  · rintro ⟨hn, mid, halign, hdata⟩
    refine ⟨(), mid, halign, _, next, ⟨Word.length_encode _, hdata⟩, ?_, rfl⟩
    rw [Word.decode_encode, UInt32.toNat_ofNat_of_lt' hn]

theorem runFrom_count_eq_ok_iff {policy : LengthPolicy} {size n : Nat} :
    (count policy size).runFrom r = (.ok n, next) ↔
      (n < Word.range ∧ r.Takes (.word (UInt32.ofNat n)) next) ∧
        policy.believes n size next.remaining = true := by
  rw [← runFrom_word_eq_ok_iff]
  simp only [count, Action.runFrom_bind, Action.runFrom_get]
  rcases word.runFrom r with ⟨_ | m, mid⟩
  · simp
  · by_cases hbelieves : policy.believes m size mid.remaining
    · simp only [if_pos hbelieves, Action.runFrom_pure, Prod.mk.injEq, Except.ok.injEq]
      constructor
      · rintro ⟨rfl, rfl⟩
        exact ⟨⟨rfl, rfl⟩, hbelieves⟩
      · exact fun h => h.1
    · simp only [if_neg hbelieves, refuse, Action.runFrom_throw, Prod.mk.injEq, Except.ok.injEq]
      constructor
      · rintro ⟨h, -⟩
        cases h
      · rintro ⟨⟨rfl, rfl⟩, h⟩
        exact (hbelieves h).elim

theorem runFrom_reserve_eq_ok_iff {policy : LengthPolicy} {element : Element} {n : Nat}
    {u : Unit} :
    (reserve policy element n).runFrom r = (.ok u, next) ↔
      policy.grants element n r.remaining = true ∧ next = r := by
  by_cases hgrants : policy.grants element n r.remaining
  · have hrun : (reserve policy element n).runFrom r = (.ok (), r) := by
      simp [reserve, hgrants]
    rw [hrun, Prod.mk.injEq, and_iff_right rfl, and_iff_right hgrants]
    exact eq_comm
  · simp [reserve, hgrants]

end Read

/-! ## Texts and sequences -/

/-- Every count that the unread bytes can hold is believed, and there is always
room. -/
structure LengthPolicy.Admits (policy : LengthPolicy) : Prop where
  believes {count size unread : Nat} (h : count * size ≤ unread) :
    policy.believes count size unread = true
  grants (element : Element) (count unread : Nat) :
    policy.grants element count unread = true

theorem LengthPolicy.bounded_admits : bounded.Admits where
  believes h := decide_eq_true h
  grants _ _ _ := rfl

theorem LengthPolicy.unchecked_admits : unchecked.Admits where
  believes _ := rfl
  grants _ _ _ := rfl

/-- The reader gives exactly the values whose script could stand at its place. -/
def Read.Parses (read : Read value) (steps : value → List WriteStep) : Prop :=
  ∀ (r : Reader) (x : value) (next : Reader),
    read.runFrom r = (.ok x, next) ↔
      (∀ step ∈ steps x, step.Sized) ∧ r.Takes (.ofScript (steps x)) next

namespace Read

variable {policy : LengthPolicy} {r next : Reader}

theorem Parses.runFrom_bind_eq_ok_iff {other : Type} {first : Read value}
    {steps : value → List WriteStep} (h : Parses first steps)
    {second : value → Read other} {y : other} :
    (first >>= second).runFrom r = (.ok y, next) ↔
      ∃ x mid, ((∀ step ∈ steps x, step.Sized) ∧ r.Takes (.ofScript (steps x)) mid) ∧
        (second x).runFrom mid = (.ok y, next) := by
  rw [Action.runFrom_bind_eq_ok_iff]
  simp only [h r]

theorem runFrom_text_eq_ok_iff {s : String} :
    (text policy).runFrom r = (.ok s, next) ↔
      ∃ mid, (count policy 1).runFrom r = (.ok ((Utf8.encode s).length + 1), mid) ∧
        mid.Takes (.ofBytes (Utf8.encode s ++ [0])) next := by
  simp only [text, Action.runFrom_bind_eq_ok_iff, Action.runFrom_get]
  constructor
  · rintro ⟨_, _, hget, length, mid, hcount, htext⟩
    cases hget
    by_cases hzero : length = 0
    · simp [hzero, refuse] at htext
    · simp only [if_neg hzero, Action.runFrom_bind_eq_ok_iff, runFrom_bytes_eq_ok_iff] at htext
      obtain ⟨raw, stop, ⟨rfl, hraw⟩, htext⟩ := htext
      by_cases hlast : raw.getLast? = some 0
      · obtain ⟨body, rfl⟩ := List.getLast?_eq_some_iff.mp hlast
        rw [if_pos hlast, List.dropLast_concat] at htext
        cases hbody : Utf8.decode? body with
        | none => simp [hbody, refuse] at htext
        | some read =>
            simp only [hbody, Action.runFrom_pure, Prod.mk.injEq, Except.ok.injEq] at htext
            obtain ⟨rfl, rfl⟩ := htext
            rw [Utf8.encode_of_decode? hbody]
            exact ⟨mid, by simpa using hcount, hraw⟩
      · simp [hlast, refuse] at htext
  · rintro ⟨mid, hcount, hraw⟩
    refine ⟨_, _, rfl, _, mid, hcount, ?_⟩
    rw [if_neg (Nat.succ_ne_zero _), Action.runFrom_bind_eq_ok_iff]
    refine ⟨_, next, runFrom_bytes_eq_ok_iff.mpr ⟨by simp, hraw⟩, ?_⟩
    rw [if_pos List.getLast?_concat, List.dropLast_concat, Utf8.decode?_encode]
    rfl

theorem parses_text (hpolicy : policy.Admits) :
    Parses (text policy) fun s => [.text s] := by
  intro r s next
  rw [runFrom_text_eq_ok_iff, List.forall_mem_singleton, Layout.ofScript_singleton,
    WriteStep.layout, Reader.takes_append_iff]
  simp only [runFrom_count_eq_ok_iff]
  constructor
  · rintro ⟨mid, ⟨⟨hsized, hword⟩, -⟩, hraw⟩
    exact ⟨hsized, mid, hword, hraw⟩
  · rintro ⟨hsized, mid, hword, hraw⟩
    refine ⟨mid, ⟨⟨hsized, hword⟩, hpolicy.believes ?_⟩, hraw⟩
    have hroom := hraw.remaining_eq
    simp only [Layout.slots_ofBytes, List.length_map, List.length_append,
      List.length_singleton] at hroom
    omega

/-- Reading several values takes their scripts one after another. -/
theorem runFrom_times_eq_ok_iff {read : Read value} {steps : value → List WriteStep}
    (hread : Parses read steps) {n : Nat} {xs : List value} :
    (times read n).runFrom r = (.ok xs, next) ↔
      xs.length = n ∧ (∀ step ∈ xs.flatMap steps, step.Sized) ∧
        r.Takes (.ofScript (xs.flatMap steps)) next := by
  induction n generalizing r xs with
  | zero =>
      rw [times, Action.runFrom_pure, Prod.mk.injEq, Except.ok.injEq]
      constructor
      · rintro ⟨rfl, rfl⟩
        exact ⟨rfl, by simp, Reader.takes_empty_iff.mpr rfl⟩
      · rintro ⟨hlength, -, htakes⟩
        obtain rfl := List.length_eq_zero_iff.mp hlength
        exact ⟨rfl, (Reader.takes_empty_iff.mp htakes).symm⟩
  | succ n ih =>
      rw [times]
      simp only [Action.runFrom_bind_eq_ok_iff, Action.runFrom_pure, Prod.mk.injEq,
        Except.ok.injEq]
      constructor
      · rintro ⟨x, mid, hx, rest, stop, hrest, rfl, rfl⟩
        obtain ⟨hsized, htakes⟩ := (hread r x mid).mp hx
        obtain ⟨rfl, hsized', htakes'⟩ := ih.mp hrest
        rw [List.flatMap_cons, Layout.ofScript_append, Reader.takes_append_iff]
        refine ⟨rfl, ?_, mid, htakes, htakes'⟩
        exact List.forall_mem_append.mpr ⟨hsized, hsized'⟩
      · rintro ⟨hlength, hsized, htakes⟩
        obtain ⟨x, rest, rfl⟩ := List.exists_cons_of_length_eq_add_one hlength
        rw [List.flatMap_cons, Layout.ofScript_append, Reader.takes_append_iff] at htakes
        rw [List.flatMap_cons, List.forall_mem_append] at hsized
        obtain ⟨mid, htakes, htakes'⟩ := htakes
        refine ⟨x, mid, (hread r x mid).mpr ⟨hsized.1, htakes⟩, rest, next,
          ih.mpr ⟨by simpa using hlength, hsized.2, htakes'⟩, rfl, rfl⟩

theorem mul_size_le_length_script {steps : value → List WriteStep} {size : Nat}
    (hsize : ∀ x offset, size ≤ ((Layout.ofScript (steps x)).slots offset).length)
    (xs : List value) (offset : Nat) :
    xs.length * size ≤ ((Layout.ofScript (xs.flatMap steps)).slots offset).length := by
  induction xs generalizing offset with
  | nil => simp
  | cons x xs ih =>
      rw [List.flatMap_cons, Layout.ofScript_append, Layout.slots_append,
        List.length_append, List.length_cons, Nat.succ_mul, Nat.add_comm]
      exact Nat.add_le_add (hsize x offset) (ih _)

/-- Elements of at least `size` bytes each pass the early check of their
count. -/
theorem parses_sequence {read : Read value} {steps : value → List WriteStep} {size : Nat}
    (hpolicy : policy.Admits) (element : Element) (hread : Parses read steps)
    (hsize : ∀ x offset, size ≤ ((Layout.ofScript (steps x)).slots offset).length) :
    Parses (sequence policy element size read) fun xs => .count xs.length :: xs.flatMap steps := by
  intro r xs next
  rw [List.forall_mem_cons, Layout.ofScript_cons, WriteStep.layout, Reader.takes_append_iff]
  simp only [sequence, Action.runFrom_bind_eq_ok_iff, runFrom_count_eq_ok_iff,
    runFrom_times_eq_ok_iff hread]
  simp only [runFrom_reserve_eq_ok_iff]
  constructor
  · rintro ⟨n, mid, ⟨⟨hn, hword⟩, -⟩, _, stop, ⟨-, rfl⟩, rfl, hsized, htakes⟩
    exact ⟨⟨hn, hsized⟩, stop, hword, htakes⟩
  · rintro ⟨⟨hn, hsized⟩, mid, hword, htakes⟩
    have hroom : xs.length * size ≤ mid.remaining := by
      rw [htakes.remaining_eq]
      exact Nat.le_add_right_of_le (mul_size_le_length_script hsize xs mid.offset)
    exact ⟨xs.length, mid, ⟨⟨hn, hword⟩, hpolicy.believes hroom⟩, (), mid,
      ⟨hpolicy.grants element _ _, rfl⟩, rfl, hsized, htakes⟩

end Read

end DiscoveryGraph.Cdr
