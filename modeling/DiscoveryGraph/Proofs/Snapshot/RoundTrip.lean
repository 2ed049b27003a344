import DiscoveryGraph.Proofs.Snapshot.Codec

/-!
# Round trips of snapshots

A snapshot that is written is read back, whatever stands in the options of its
message and behind it.  A message that is read can be written again, and the
result differs from it only in fillers, unless a text holds U+0000.
-/

namespace DiscoveryGraph.Snapshot

open Cdr

/-! ## From snapshots to messages and back -/

theorem decodeWith_append_of_fits {memory : Memory} {policy : LengthPolicy}
    (hpolicy : policy.Admits) {s : Snapshot} {b front : List UInt8}
    (h : s.encode memory = .ok b) (hfits : Fits front s.slots) (tail : List UInt8) :
    decodeWith policy (front ++ tail) = .ok s := by
  obtain ⟨hfaults, -⟩ := eq_fill_of_encode h
  rw [decodeWith_eq_ok_iff hpolicy]
  refine ⟨?_, front, tail, rfl, hfits⟩
  intro step hstep
  exact ((step.fault?_eq_none_iff).mp (hfaults step hstep)).2

theorem decode_of_encode {memory : Memory} {s : Snapshot} {b : List UInt8}
    (h : s.encode memory = .ok b) : decode b = .ok s := by
  have hfits : Fits b s.slots := by
    rw [(eq_fill_of_encode h).2]
    exact fits_fill s.slots
  have hread := decodeWith_append_of_fits LengthPolicy.bounded_admits h hfits []
  rw [List.append_nil] at hread
  exact hread

theorem fits_set_options (s : Snapshot) (x y : UInt8) :
    Fits (((s.slots.map Slot.fill).set 2 x).set 3 y) s.slots :=
  .cons rfl (.cons rfl (.cons trivial (.cons trivial (fits_fill _))))

/-- A snapshot is read back from its message with any options and anything behind
it. -/
theorem decode_append_of_encode {memory : Memory} {s : Snapshot} {b : List UInt8}
    (h : s.encode memory = .ok b) (tail : List UInt8) (x y : UInt8) :
    decode (b ++ tail) = .ok s ∧ decode ((b.set 2 x).set 3 y ++ tail) = .ok s := by
  have hb := (eq_fill_of_encode h).2
  constructor
  · refine decodeWith_append_of_fits LengthPolicy.bounded_admits h ?_ tail
    rw [hb]
    exact fits_fill s.slots
  · refine decodeWith_append_of_fits LengthPolicy.bounded_admits h ?_ tail
    rw [hb]
    exact fits_set_options s x y

/-- Two equal nodes, each with one reader listed twice. -/
def twins : Snapshot where
  participant := .padded (List.replicate 16 7)
  nodes := List.replicate 2
    ⟨⟨"é", ""⟩, List.replicate 2 (.padded (List.replicate 16 3)), []⟩

def twinsMessage : List UInt8 :=
  [0, 1, 0, 0] ++ List.replicate 16 7 ++ [2, 0, 0, 0] ++
    (List.replicate 2
      ([1, 0, 0, 0, 0, 0, 0, 0, 3, 0, 0, 0, 0xC3, 0xA9, 0, 0] ++
        [2, 0, 0, 0] ++ List.replicate 32 3 ++ [0, 0, 0, 0])).flatten

theorem decode_twinsMessage_append :
    twins.encode .machine = .ok twinsMessage ∧
      decode (twinsMessage ++ [1]) = .ok twins ∧
      decode ((twinsMessage.set 2 8).set 3 9 ++ [1]) = .ok twins := by
  have h : twins.encode .machine = .ok twinsMessage := by decide +kernel
  exact ⟨h, decode_append_of_encode h [1] 8 9⟩

/-! ## From messages to snapshots and back -/

theorem affords_of_decode {memory : Memory} {data : List UInt8} {s : Snapshot}
    (h : decode data = .ok s) (hmemory : memory.Grants (2 * data.length)) :
    Affords memory s := by
  obtain ⟨-, front, rest, rfl, hfits⟩ :=
    (decodeWith_eq_ok_iff LengthPolicy.bounded_admits).mp h
  have hslots := s.length_slots
  have hhint := s.sizeHint_le
  have hnodes := s.leastNodeSize_mul_le
  have hlength := hfits.length_eq
  have hheader : encapsulation.length = 4 := rfl
  rw [List.length_append] at hmemory
  simp only [gidSize, Word.size, leastNodeSize] at hnodes
  constructor
  · exact hmemory.mono (by omega)
  · exact hmemory.mono (by omega)

/-- A snapshot that was read is written exactly when its texts do not contain
U+0000. -/
theorem encode_cases_of_decode {memory : Memory} {data : List UInt8} {s : Snapshot}
    (h : decode data = .ok s) (hmemory : memory.Grants (2 * data.length)) :
    (s.TerminatorFree ∧ s.encode memory = .ok (s.slots.map Slot.fill)) ∨
      (¬s.TerminatorFree ∧ ∃ offset,
        s.encode memory = .error (.serialization offset .embeddedTerminator)) := by
  have haffords := affords_of_decode h hmemory
  obtain ⟨hsized, -⟩ := (decodeWith_eq_ok_iff LengthPolicy.bounded_admits).mp h
  by_cases hfree : s.TerminatorFree
  · refine Or.inl ⟨hfree, encode_of_fault?_eq_none haffords ?_⟩
    intro step hstep
    exact step.fault?_eq_none_iff.mpr
      ⟨s.terminatorFree_iff.mp hfree step hstep, hsized step hstep⟩
  · refine Or.inr ⟨hfree, ?_⟩
    have hfault : ¬∀ step ∈ s.steps, step.fault? = none := by
      intro hall
      apply hfree
      rw [terminatorFree_iff]
      intro step hstep
      exact (step.fault?_eq_none_iff.mp (hall step hstep)).1
    obtain ⟨step, hmem, offset, fault, hstep, hencode⟩ :=
      encode_of_fault haffords hfault
    obtain rfl : Fault.embeddedTerminator = fault := by
      rw [WriteStep.fault?, if_pos (hsized step hmem)] at hstep
      split at hstep
      · cases hstep
      · exact Option.some.inj hstep
    exact ⟨_, hencode⟩

/-- What is read from a message can be written again unless a text holds U+0000,
and the new message is as long as what was read, has zeros for fillers and agrees
with the old one everywhere else. -/
theorem encode_of_decode {memory : Memory} {data : List UInt8} {s : Snapshot}
    (h : decode data = .ok s) (hmemory : memory.Grants (2 * data.length)) :
    ((∃ b, s.encode memory = .ok b) ↔ s.TerminatorFree) ∧
      (¬s.TerminatorFree → ∃ offset fault,
        s.encode memory = .error (.serialization offset fault)) ∧
      ∀ b, s.encode memory = .ok b →
        b.length = 4 + stopOffset data ∧
          b.length ≤ data.length ∧
          ∀ i < b.length,
            b[i]? = if s.slots[i]? = some .filler then some 0 else data[i]? := by
  have hcases := encode_cases_of_decode h hmemory
  refine ⟨?_, ?_, ?_⟩
  · rcases hcases with ⟨hfree, hok⟩ | ⟨hfree, offset, hrefused⟩
    · exact ⟨fun _ => hfree, fun _ => ⟨_, hok⟩⟩
    · refine ⟨?_, fun hfree' => (hfree hfree').elim⟩
      rintro ⟨b, hok⟩
      rw [hrefused] at hok
      cases hok
  · intro hfree
    rcases hcases with ⟨hfree', -⟩ | ⟨-, offset, hrefused⟩
    · exact (hfree hfree').elim
    · exact ⟨offset, _, hrefused⟩
  · intro b hb
    obtain ⟨-, rfl⟩ := eq_fill_of_encode hb
    have hstop := length_slots_of_decode h
    obtain ⟨-, front, rest, rfl, hfits⟩ :=
      (decodeWith_eq_ok_iff LengthPolicy.bounded_admits).mp h
    rw [List.length_map]
    refine ⟨hstop, ?_, ?_⟩
    · rw [List.length_append, hfits.length_eq]
      exact Nat.le_add_right _ _
    · intro i hi
      by_cases hfiller : s.slots[i]? = some .filler
      · rw [if_pos hfiller]
        exact getElem?_fill_filler hfiller
      · rw [if_neg hfiller, List.getElem?_append_left (hfits.length_eq.symm ▸ hi)]
        exact (hfits.getElem?_eq hfiller).symm

/-- A message with options, with other bytes than zeros for padding, and with a
byte behind its only node. -/
def untidyMessage : List UInt8 :=
  [0, 1, 8, 9] ++ List.replicate 16 7 ++ [1, 0, 0, 0] ++
    [1, 0, 0, 0, 0, 10, 11, 12, 2, 0, 0, 0, 65, 0, 13, 14] ++
    [0, 0, 0, 0, 0, 0, 0, 0] ++ [15]

def onlyNode : Snapshot := ⟨.padded (List.replicate 16 7), [⟨⟨"A", ""⟩, [], []⟩]⟩

theorem encode_onlyNode_of_untidyMessage :
    decode untidyMessage = .ok onlyNode ∧
      Memory.machine.Grants (2 * untidyMessage.length) ∧
      ((∃ b, onlyNode.encode .machine = .ok b) ↔ onlyNode.TerminatorFree) ∧
      (¬onlyNode.TerminatorFree → ∃ offset fault,
        onlyNode.encode .machine = .error (.serialization offset fault)) ∧
      ∀ b, onlyNode.encode .machine = .ok b →
        b.length = 48 ∧ b[3]? = some 0 ∧ b[29]? = some 0 ∧ b[36]? = some 65 := by
  have h : decode untidyMessage = .ok onlyNode := by decide +kernel
  have hmemory : Memory.machine.Grants (2 * untidyMessage.length) := by
    intro n hn
    have hlength : untidyMessage.length = 49 := rfl
    rw [hlength] at hn
    simp only [Memory.machine, Memory.below, addressRange, decide_eq_true_eq]
    omega
  obtain ⟨hwritten, hrefused, hagrees⟩ := encode_of_decode h hmemory
  refine ⟨h, hmemory, hwritten, hrefused, ?_⟩
  intro b hb
  obtain ⟨hlength, -, hbytes⟩ := hagrees b hb
  have hstop : stopOffset untidyMessage = 44 := by decide +kernel
  rw [hstop] at hlength
  refine ⟨hlength, ?_, ?_, ?_⟩
  · rw [hbytes 3 (by omega)]
    decide +kernel
  · rw [hbytes 29 (by omega)]
    decide +kernel
  · rw [hbytes 36 (by omega)]
    decide +kernel

end DiscoveryGraph.Snapshot
