import DiscoveryGraph.Proofs.Snapshot.RoundTrip

/-!
# Room for the message of a snapshot

Before a snapshot is written, room is reserved for its message.  The hint counts 24 bytes for
each node besides its texts and gids: four lengths, two terminators and six bytes for fillers.
A node that begins at a multiple of four needs no more than that, because fillers can only
follow its two texts, and it ends at a multiple of four.  So the room is enough, and what is
left over is at most those six bytes for each node.
-/

namespace DiscoveryGraph

open Cdr

/-! ## Nodes end where words may begin -/

theorem dvd_length_layout_gidSteps (gids : List Gid) (offset : Nat) :
    Word.size ∣ offset + ((Layout.ofScript (gidSteps gids)).slots offset).length := by
  have hcount : Word.size ∣ offset + Writer.padding offset Word.size + Word.size :=
    Nat.dvd_add (Writer.dvd_offset_add_padding (by decide) offset) (Nat.dvd_refl Word.size)
  have hgids : Word.size ∣ gids.length * gidSize :=
    Nat.dvd_mul_left_of_dvd (by decide) gids.length
  rw [length_layout_gidSteps, ← Nat.add_assoc, ← Nat.add_assoc]
  exact Nat.dvd_add hcount hgids

/-- Fillers follow the texts of a node only, at most three bytes for each of the two. -/
theorem Node.length_layout_le (n : Node) {offset : Nat} (h : Word.size ∣ offset) :
    ((Layout.ofScript n.steps).slots offset).length ≤ n.contentSize + 6 ∧
      Word.size ∣ offset + ((Layout.ofScript n.steps).slots offset).length := by
  have hword : Word.size = 4 := rfl
  have hgap (place : Nat) : Writer.padding place Word.size < Word.size :=
    Writer.padding_lt (by decide) place
  have hns := length_layout_text n.ns offset
  rw [Writer.padding_of_dvd h] at hns
  simp only [steps, contentSize, Layout.ofScript_singleton, Layout.ofScript_append,
    Layout.slots_append, List.length_append, Nat.add_mul]
  -- The place where each field begins is the end of the one before it.
  generalize ((WriteStep.text n.ns).layout.slots offset).length = ns at *
  have hname := length_layout_text n.name (offset + ns)
  have hgapName := hgap (offset + ns)
  generalize ((WriteStep.text n.name).layout.slots (offset + ns)).length = name at *
  have hreaders := length_layout_gidSteps n.readers (offset + ns + name)
  have hgapReaders := hgap (offset + ns + name)
  have hend := dvd_length_layout_gidSteps n.readers (offset + ns + name)
  generalize ((Layout.ofScript (gidSteps n.readers)).slots (offset + ns + name)).length =
    readers at *
  have hwriters := length_layout_gidSteps n.writers (offset + ns + name + readers)
  rw [Writer.padding_of_dvd hend] at hwriters
  have hendWriters := dvd_length_layout_gidSteps n.writers (offset + ns + name + readers)
  constructor
  · omega
  · simpa only [Nat.add_assoc] using hendWriters

namespace Snapshot

theorem length_layout_nodes_le (base : Nat) (nodes : List Node) {offset : Nat}
    (h : Word.size ∣ offset) :
    base + ((Layout.ofScript (nodes.flatMap Node.steps)).slots offset).length ≤
      nodes.foldr (fun n room => nodeSizeHint n + room) base := by
  induction nodes generalizing offset with
  | nil => simp
  | cons n nodes ih =>
      obtain ⟨hsize, hend⟩ := n.length_layout_le h
      have hrest := ih hend
      rw [List.foldr_cons, List.flatMap_cons, Layout.ofScript_append, Layout.slots_append,
        List.length_append, n.nodeSizeHint_eq]
      omega

/-- The room reserved for a snapshot is enough for its layout. -/
theorem length_layout_le_sizeHint (s : Snapshot) :
    ((Layout.ofScript s.steps).slots 0).length ≤ s.sizeHint := by
  rw [length_layout]
  exact length_layout_nodes_le _ s.nodes (by decide)

/-! ## Writing within the room -/

variable {memory : Memory} {s : Snapshot}

/-- The room that is asked for before the first field is written. -/
def reservation (s : Snapshot) : Nat := encapsulation.length + s.sizeHint

theorem affords_of_grants (h : memory.Grants s.reservation) : Affords memory s := by
  rw [reservation] at h
  refine ⟨h, h.mono ?_⟩
  rw [length_slots]
  exact Nat.add_le_add_left s.length_layout_le_sizeHint _

/-- The hint counts at least the bytes that the message of a snapshot has behind its header,
and at most six more for each node.  So, unless the hint is too large for an address, a
snapshot that can be written at all is written wherever there is memory for what is reserved
at the start: no step asks for more. -/
theorem sizeHint_sufficient_and_tight {b : List UInt8} (hencode : s.encode memory = .ok b) :
    (∃ n, b.length = encapsulation.length + n ∧ n ≤ s.sizeHint ∧
        s.sizeHint ≤ n + 6 * s.nodes.length) ∧
      (encapsulation.length + s.sizeHint < addressRange →
        ∀ scarce : Memory, scarce.Grants s.reservation → s.encode scarce = .ok b) := by
  obtain ⟨hfaults, rfl⟩ := eq_fill_of_encode hencode
  constructor
  · refine ⟨_, ?_, s.length_layout_le_sizeHint, s.sizeHint_le⟩
    rw [List.length_map, length_slots]
    rfl
  · intro _ scarce hgrants
    exact encode_of_fault?_eq_none (affords_of_grants hgrants) hfaults

/-- The texts of the first node leave three bytes each to the next multiple of four, and those
of the second node leave none. -/
def unevenTexts : Snapshot where
  participant := .padded [1]
  nodes := [⟨⟨"", ""⟩, [], []⟩, ⟨⟨"xyz", "/ab"⟩, [.padded [2]], []⟩]

theorem sizeHint_unevenTexts :
    unevenTexts.encode .unlimited = .ok (unevenTexts.slots.map Slot.fill) ∧
      encapsulation.length + unevenTexts.sizeHint < addressRange ∧
      unevenTexts.sizeHint = 90 ∧
      (∃ n, (unevenTexts.slots.map Slot.fill).length = encapsulation.length + n ∧ n ≤ 90 ∧
        90 ≤ n + 6 * 2) ∧
      unevenTexts.encode (.below 95) = .ok (unevenTexts.slots.map Slot.fill) := by
  have hfaults : ∀ step ∈ unevenTexts.steps, step.fault? = none := by decide +kernel
  have hencode : unevenTexts.encode .unlimited = .ok (unevenTexts.slots.map Slot.fill) :=
    encode_of_fault?_eq_none ⟨fun _ _ => rfl, fun _ _ => rfl⟩ hfaults
  have hhint : unevenTexts.sizeHint = 90 := by decide +kernel
  have hfits : encapsulation.length + unevenTexts.sizeHint < addressRange := by
    rw [hhint]
    decide
  obtain ⟨hbounds, hroom⟩ := sizeHint_sufficient_and_tight hencode
  rw [hhint] at hbounds
  refine ⟨hencode, hfits, hhint, hbounds, hroom hfits _ fun n hn => ?_⟩
  rw [reservation, hhint] at hn
  exact decide_eq_true (Nat.lt_succ_of_le hn)

end Snapshot

end DiscoveryGraph
