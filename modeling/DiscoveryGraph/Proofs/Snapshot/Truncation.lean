import DiscoveryGraph.Proofs.Cdr.Progress
import DiscoveryGraph.Proofs.Snapshot.RoundTrip

/-!
# Messages that are cut short

A message that is read holds everything up to the place where its reader stops, and what
follows does not matter.  So of its beginnings those that get there are read as the same
snapshot, and all shorter ones are refused: if one of them were read, the whole message
would be read as that snapshot, which is too long for it.  Whatever is refused is refused
with a fault that lies inside the message.
-/

namespace DiscoveryGraph

open Cdr

/-! ## Faults of messages -/

section Forward

variable {start : Nat}

theorem forward_readGid : Read.Forward start readGid :=
  (Read.forward_bytes gidSize).bind fun _ => Read.forward_pure _

theorem forward_readGids : Read.Forward start (readGids .bounded) :=
  Read.forward_sequence (fun _ _ => rfl) forward_readGid gidSize

theorem Node.forward_read : Read.Forward start (Node.read .bounded) :=
  Read.forward_text.bind fun _ => Read.forward_text.bind fun _ =>
    forward_readGids.bind fun _ => forward_readGids.bind fun _ => Read.forward_pure _

theorem Snapshot.forward_read : Read.Forward start (Snapshot.read .bounded) :=
  forward_readGid.bind fun _ =>
    (Read.forward_sequence (fun _ _ => rfl) Node.forward_read leastNodeSize).bind fun _ =>
      Read.forward_pure _

end Forward

namespace Snapshot

variable {data p b : List UInt8} {s : Snapshot} {memory : Memory}

theorem eq_serialization_of_body {e : Error} (h : body data = .error e) :
    ∃ fault, e = .serialization 0 fault := by
  unfold body at h
  split at h
  · split at h
    · cases h
    · exact ⟨_, (Except.error.inj h).symm⟩
  · exact ⟨_, (Except.error.inj h).symm⟩

/-- What is not read is refused with a fault, at an offset inside the body. -/
theorem eq_serialization_of_decode {e : Error} (h : decode data = .error e) :
    ∃ offset fault, e = .serialization offset fault ∧
      offset ≤ data.length - encapsulation.length := by
  cases hbody : body data with
  | error e' =>
      rw [decode, decodeWith_of_body_eq_error hbody] at h
      obtain rfl := Except.error.inj h
      obtain ⟨fault, rfl⟩ := eq_serialization_of_body hbody
      exact ⟨0, fault, rfl, Nat.zero_le _⟩
  | ok rest =>
      have hforward := Snapshot.forward_read (.ofBody rest) (Nat.le_refl 0)
      rw [decode, decodeWith_of_body_eq_ok hbody] at h
      rcases hrun : (read .bounded).runFrom (.ofBody rest) with ⟨e' | s, next⟩
      · rw [hrun] at h hforward
        obtain rfl := Except.error.inj h
        obtain ⟨hreaches, offset, fault, rfl, -, hoffset⟩ := hforward
        refine ⟨offset, fault, rfl, ?_⟩
        have hsum := hreaches.offset_add_remaining
        simp only [Reader.ofBody, Reader.remaining] at hsum
        rw [length_of_body_eq_ok hbody]
        omega
      · rw [hrun] at h
        cases h

/-! ## Beginnings of messages -/

theorem length_slots_le_of_decode (h : decode data = .ok s) : s.slots.length ≤ data.length := by
  obtain ⟨-, front, rest, rfl, hfits⟩ :=
    (decodeWith_eq_ok_iff LengthPolicy.bounded_admits).mp h
  rw [List.length_append, hfits.length_eq]
  exact Nat.le_add_right _ _

theorem decode_append_of_decode (h : decode data = .ok s) (tail : List UInt8) :
    decode (data ++ tail) = .ok s := by
  obtain ⟨hsized, front, rest, rfl, hfits⟩ :=
    (decodeWith_eq_ok_iff LengthPolicy.bounded_admits).mp h
  exact (decodeWith_eq_ok_iff LengthPolicy.bounded_admits).mpr
    ⟨hsized, front, rest ++ tail, List.append_assoc .., hfits⟩

/-- A beginning of a message that is read is read exactly if it holds the whole layout of
the snapshot, and then as that snapshot. -/
theorem decode_prefix_eq_ok_iff (h : decode data = .ok s) (hbegins : p <+: data)
    {read : Snapshot} : decode p = .ok read ↔ read = s ∧ s.slots.length ≤ p.length := by
  constructor
  · intro hp
    obtain ⟨tail, rfl⟩ := hbegins
    obtain rfl := Except.ok.inj ((decode_append_of_decode hp tail).symm.trans h)
    exact ⟨rfl, length_slots_le_of_decode hp⟩
  · rintro ⟨rfl, hlength⟩
    obtain ⟨hsized, front, rest, rfl, hfits⟩ :=
      (decodeWith_eq_ok_iff LengthPolicy.bounded_admits).mp h
    rw [← hfits.length_eq] at hlength
    obtain ⟨tail, rfl⟩ :=
      List.prefix_of_prefix_length_le (List.prefix_append front rest) hbegins hlength
    exact (decodeWith_eq_ok_iff LengthPolicy.bounded_admits).mpr
      ⟨hsized, front, tail, rfl, hfits⟩

/-- A message that was written and then cut short anywhere is refused. -/
theorem decode_eq_error_of_strict_prefix (h : s.encode memory = .ok b) (hbegins : p <+: b)
    (hne : p ≠ b) :
    ∃ offset fault, decode p = .error (.serialization offset fault) ∧
      offset ≤ p.length - encapsulation.length := by
  cases hp : decode p with
  | error e =>
      obtain ⟨offset, fault, rfl, hoffset⟩ := eq_serialization_of_decode hp
      exact ⟨offset, fault, rfl, hoffset⟩
  | ok read =>
      obtain ⟨-, hlength⟩ := (decode_prefix_eq_ok_iff (decode_of_encode h) hbegins).mp hp
      have hb : b.length = s.slots.length := by
        rw [(eq_fill_of_encode h).2, List.length_map]
      exact (hne (hbegins.eq_of_length_le (hb ▸ hlength))).elim

/-- The cut is behind the number of nodes and before the first of them. -/
theorem decode_twinsMessage_take :
    twins.encode .machine = .ok twinsMessage ∧
      twinsMessage.take 24 <+: twinsMessage ∧
      twinsMessage.take 24 ≠ twinsMessage ∧
      ∃ offset fault, decode (twinsMessage.take 24) = .error (.serialization offset fault) ∧
        offset ≤ 20 := by
  have h : twins.encode .machine = .ok twinsMessage := by decide +kernel
  have hne : twinsMessage.take 24 ≠ twinsMessage := by decide +kernel
  exact ⟨h, List.take_prefix 24 twinsMessage, hne,
    decode_eq_error_of_strict_prefix h (List.take_prefix 24 twinsMessage) hne⟩

end Snapshot

end DiscoveryGraph
