import DiscoveryGraph.Proofs.Qos.Overflow
import DiscoveryGraph.Qos.Compatibility

/-!
# Explanations in bounded buffers

An explanation is written in pieces, and a bounded buffer cuts each piece for itself.  All
pieces are ASCII text, so a piece that does not fit fills the buffer to the last byte and
leaves no room for later ones.  The result is that of one cut: the buffer keeps the first
bytes of the full explanation, as many as there was room for.  The verdict does not depend
on the buffer.
-/

namespace DiscoveryGraph

namespace Reason

/-- The first bytes, as many as there is room for. -/
def within (room : Option Nat) (bytes : List UInt8) : List UInt8 :=
  match room with
  | none => bytes
  | some n => bytes.take n

theorem within_append (room : Option Nat) (first rest : List UInt8) :
    within room (first ++ rest) =
      within room first ++ within (room.map (· - first.length)) rest := by
  cases room with
  | none => rfl
  | some n => exact List.take_append

variable {s : String} {texts : List String}

theorem fitting_eq_take {cs : List Char} (hcs : ∀ c ∈ cs, c.utf8Size = 1) (room : Nat) :
    fitting room cs = cs.take room := by
  induction cs generalizing room with
  | nil => rw [fitting, List.take_nil]
  | cons c cs ih =>
      have hc : c.utf8Size = 1 := hcs c List.mem_cons_self
      have hrest : ∀ c ∈ cs, c.utf8Size = 1 := fun d hd => hcs d (List.mem_cons_of_mem c hd)
      rw [fitting, hc]
      cases room with
      | zero => rfl
      | succ room => rw [if_pos (by omega), Nat.add_sub_cancel, ih hrest, List.take_succ_cons]

theorem encode_cut (hs : Utf8.Ascii s) (room : Option Nat) :
    Utf8.encode (cut s room) = within room (Utf8.encode s) := by
  cases room with
  | none => rfl
  | some n => rw [cut, fitting_eq_take hs.utf8Size_eq_one, hs.encode_ofList_take, within]

theorem encode_write (hs : Utf8.Ascii s) (r : Reason) :
    Utf8.encode (r.write s).text =
      Utf8.encode r.text ++ within r.room (Utf8.encode s) := by
  rw [write, Utf8.encode_append, encode_cut hs]

theorem room_write_of_ascii (hs : Utf8.Ascii s) (r : Reason) :
    (r.write s).room = r.room.map (· - (Utf8.encode s).length) := by
  rw [room_write, ← Utf8.length_encode, encode_cut hs]
  cases r.room with
  | none => rfl
  | some n =>
      simp only [within, Option.map_some, List.length_take]
      congr 1
      omega

theorem encode_writeAll (htexts : ∀ s ∈ texts, Utf8.Ascii s) (r : Reason) :
    Utf8.encode (r.writeAll texts).text =
      Utf8.encode r.text ++ within r.room (Utf8.encode (String.join texts)) := by
  induction texts generalizing r with
  | nil =>
      have hnothing : within r.room (Utf8.encode (String.join [])) = [] := by
        cases r.room with
        | none => rfl
        | some n => exact List.take_nil
      rw [hnothing, List.append_nil]
      rfl
  | cons s texts ih =>
      have hs : Utf8.Ascii s := htexts s List.mem_cons_self
      have hrest : ∀ s ∈ texts, Utf8.Ascii s := fun t ht => htexts t (List.mem_cons_of_mem s ht)
      calc
        Utf8.encode ((r.write s).writeAll texts).text =
            Utf8.encode (r.write s).text ++
              within (r.write s).room (Utf8.encode (String.join texts)) := ih hrest (r.write s)
        _ = Utf8.encode r.text ++ (within r.room (Utf8.encode s) ++
              within (r.room.map (· - (Utf8.encode s).length))
                (Utf8.encode (String.join texts))) := by
          rw [encode_write hs, room_write_of_ascii hs, List.append_assoc]
        _ = Utf8.encode r.text ++ within r.room (Utf8.encode (String.join (s :: texts))) := by
          rw [← within_append, String.join_cons, Utf8.encode_append]

theorem capacity_writeAll (r : Reason) (texts : List String) :
    (r.writeAll texts).capacity = r.capacity := by
  induction texts generalizing r with
  | nil => rfl
  | cons s texts ih => exact ih (r.write s)

end Reason

/-! ## The pieces of an explanation -/

theorem Conflict.ascii_entry (c : Conflict) : Utf8.Ascii c.entry := by
  cases c <;> decide

theorem Doubt.ascii_pieces (d : Doubt) : ∀ s ∈ d.pieces, Utf8.Ascii s := by
  have hreliability : ∀ p : Reliability, Utf8.Ascii (named p.name?) := by
    intro p
    cases p <;> decide
  have hdurability : ∀ p : Durability, Utf8.Ascii (named p.name?) := by
    intro p
    cases p <;> decide
  have hliveliness : ∀ p : Liveliness, Utf8.Ascii (named p.name?) := by
    intro p
    cases p <;> decide
  cases d <;>
    simp only [pieces, List.forall_mem_cons, List.not_mem_nil, false_implies, implies_true,
      hreliability, hdurability, hliveliness, true_and, and_true] <;>
    decide

theorem ascii_of_mem_pieces (offer request : Profile) :
    ∀ s ∈ pieces offer request, Utf8.Ascii s := by
  intro s hs
  rw [pieces] at hs
  split at hs
  · obtain ⟨d, -, hd⟩ := List.mem_flatMap.mp hs
    exact d.ascii_pieces s hd
  · obtain ⟨c, -, rfl⟩ := List.mem_map.mp hs
    exact c.ascii_entry

/-- The pieces make up the entries. -/
theorem join_pieces (offer request : Profile) :
    String.join (pieces offer request) = String.join (entries offer request) := by
  apply String.toList_injective
  rw [pieces, entries]
  split
  · simp only [String.toList_join, List.flatMap_assoc, List.flatMap_map, Doubt.entry]
  · rfl

/-- Comparing with a buffer, whatever it holds and however much it can hold, gives the
verdict of the comparison in full and appends the first bytes of the full explanation, as
many as there is room for. -/
theorem checkInto_appends_first_bytes (offer request : Profile) (buffer : Reason) :
    let full := checkCompatible offer request
    let result := checkInto offer request buffer
    result.1 = full.verdict ∧
      Utf8.encode result.2.text =
        Utf8.encode buffer.text ++ Reason.within buffer.room (Utf8.encode full.reason) ∧
      result.2.capacity = buffer.capacity ∧
      ∀ capacity, (checkBounded offer request capacity).verdict = full.verdict ∧
        Utf8.encode (checkBounded offer request capacity).reason =
          (Utf8.encode full.reason).take (capacity - 1) := by
  intro full result
  have happends : ∀ r : Reason, Utf8.encode (checkInto offer request r).2.text =
      Utf8.encode r.text ++ Reason.within r.room (Utf8.encode full.reason) := by
    intro r
    have hreason : full.reason = String.join (pieces offer request) :=
      (join_pieces offer request).symm
    rw [hreason]
    exact Reason.encode_writeAll (ascii_of_mem_pieces offer request) r
  refine ⟨rfl, happends buffer, buffer.capacity_writeAll (pieces offer request), ?_⟩
  intro capacity
  exact ⟨rfl, happends (.ofCapacity capacity)⟩

end DiscoveryGraph
