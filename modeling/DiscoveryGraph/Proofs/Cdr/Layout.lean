import DiscoveryGraph.Cdr.Writer
import Mathlib.Data.List.Forall2

/-!
# Layouts

A layout says what each byte of a field is for, given the offset at which the
field begins.  A byte either carries content or is a filler, which a writer sets
to zero and a reader skips.  Writers and readers are compared with layouts and
never with each other: a writer produces the one message in which every filler
is zero, and a reader accepts exactly the messages that fit the layout.
-/

namespace DiscoveryGraph.Cdr

/-- What one byte of a message is for. -/
inductive Slot
  /-- The byte belongs to a field. -/
  | content (b : UInt8)
  /-- The byte only fills the space up to the next field. -/
  | filler
  deriving DecidableEq

namespace Slot

/-- The byte that is written into a slot. -/
def fill : Slot → UInt8
  | content b => b
  | filler => 0

@[simp]
theorem fill_filler : fill .filler = 0 := rfl

@[simp]
theorem fill_comp_content : fill ∘ content = id := rfl

/-- Whether a byte may stand in a slot. -/
def Admits (x : UInt8) : Slot → Prop
  | content b => x = b
  | filler => True

end Slot

/-- The bytes may stand in the slots, one in each. -/
abbrev Fits (data : List UInt8) (slots : List Slot) : Prop :=
  List.Forall₂ Slot.Admits data slots

theorem fits_fill (slots : List Slot) : Fits (slots.map Slot.fill) slots := by
  rw [Fits, List.forall₂_map_left_iff, List.forall₂_same]
  intro slot _
  cases slot with
  | content b => rfl
  | filler => trivial

theorem fits_append_iff {data : List UInt8} {first second : List Slot} :
    Fits data (first ++ second) ↔
      ∃ front rest, data = front ++ rest ∧ Fits front first ∧ Fits rest second := by
  constructor
  · intro h
    exact ⟨_, _, (List.take_append_drop first.length data).symm,
      List.forall₂_take_append _ _ _ h, List.forall₂_drop_append _ _ _ h⟩
  · rintro ⟨front, rest, rfl, hfront, hrest⟩
    exact List.rel_append hfront hrest

theorem fits_content_iff {data content : List UInt8} :
    Fits data (content.map Slot.content) ↔ data = content := by
  rw [Fits, List.forall₂_map_right_iff]
  change List.Forall₂ (· = ·) data content ↔ data = content
  rw [List.forall₂_eq_eq_eq]

theorem fits_replicate_filler_iff {data : List UInt8} {n : Nat} :
    Fits data (List.replicate n .filler) ↔ data.length = n := by
  constructor
  · intro h
    simpa using h.length_eq
  · rintro rfl
    induction data with
    | nil => exact .nil
    | cons x data ih => exact .cons trivial ih

/-- Data that fits a layout agrees with what is written, except in fillers. -/
theorem Fits.getElem?_eq {data : List UInt8} {slots : List Slot} (h : Fits data slots)
    {i : Nat} (hi : slots[i]? ≠ some .filler) :
    data[i]? = (slots.map Slot.fill)[i]? := by
  induction h generalizing i with
  | nil => rfl
  | @cons x slot data slots hx _ ih =>
      cases i with
      | zero =>
          cases slot with
          | content b => exact congrArg some hx
          | filler => exact (hi rfl).elim
      | succ i => simpa using ih (by simpa using hi)

theorem getElem?_fill_filler {slots : List Slot} {i : Nat}
    (hi : slots[i]? = some .filler) : (slots.map Slot.fill)[i]? = some 0 := by
  rw [List.getElem?_map, hi]
  rfl

/-! ## Padding -/

namespace Writer

variable {alignment : Nat}

theorem padding_lt (h : 0 < alignment) (offset : Nat) : padding offset alignment < alignment :=
  Nat.mod_lt _ h

theorem dvd_offset_add_padding (h : 0 < alignment) (offset : Nat) :
    alignment ∣ offset + padding offset alignment := by
  have hdiv := Nat.div_add_mod offset alignment
  have hmod := Nat.mod_lt offset h
  rw [padding]
  by_cases hzero : offset % alignment = 0
  · rw [hzero, Nat.sub_zero, Nat.mod_self, Nat.add_zero]
    exact Nat.dvd_of_mod_eq_zero hzero
  · rw [Nat.mod_eq_of_lt (by omega)]
    refine ⟨offset / alignment + 1, ?_⟩
    rw [Nat.mul_succ]
    omega

theorem padding_of_dvd {offset : Nat} (h : alignment ∣ offset) : padding offset alignment = 0 := by
  rw [padding, Nat.mod_eq_zero_of_dvd h, Nat.sub_zero, Nat.mod_self]

end Writer

/-! ## Fields -/

/-- What a field occupies, given the offset at which it begins. -/
@[ext]
structure Layout where
  slots : Nat → List Slot

namespace Layout

def empty : Layout := ⟨fun _ => []⟩

/-- One field after another. -/
instance : Append Layout where
  append first second :=
    ⟨fun offset =>
      first.slots offset ++ second.slots (offset + (first.slots offset).length)⟩

/-- Bytes wherever they stand. -/
def ofBytes (data : List UInt8) : Layout := ⟨fun _ => data.map .content⟩

/-- Fillers up to the next multiple of `alignment`. -/
def align (alignment : Nat) : Layout :=
  ⟨fun offset => List.replicate (Writer.padding offset alignment) .filler⟩

/-- An aligned word. -/
def word (value : UInt32) : Layout := align Word.size ++ ofBytes (Word.encode value)

@[simp]
theorem slots_empty (offset : Nat) : empty.slots offset = [] := rfl

@[simp]
theorem slots_append (first second : Layout) (offset : Nat) :
    (first ++ second).slots offset =
      first.slots offset ++ second.slots (offset + (first.slots offset).length) := rfl

@[simp]
theorem slots_ofBytes (data : List UInt8) (offset : Nat) :
    (ofBytes data).slots offset = data.map .content := rfl

@[simp]
theorem slots_align (alignment offset : Nat) :
    (align alignment).slots offset =
      List.replicate (Writer.padding offset alignment) .filler := rfl

@[simp]
theorem length_slots_word (value : UInt32) (offset : Nat) :
    ((word value).slots offset).length = Writer.padding offset Word.size + Word.size := by
  simp [word]

theorem ofBytes_append (first second : List UInt8) :
    ofBytes (first ++ second) = ofBytes first ++ ofBytes second := by
  ext1
  funext offset
  simp

@[simp]
theorem empty_append (l : Layout) : empty ++ l = l := by
  ext1
  funext offset
  simp

@[simp]
theorem append_empty (l : Layout) : l ++ empty = l := by
  ext1
  funext offset
  simp

theorem append_assoc (a b c : Layout) : a ++ b ++ c = a ++ (b ++ c) := by
  ext1
  funext offset
  simp [Nat.add_assoc]

end Layout

end DiscoveryGraph.Cdr
