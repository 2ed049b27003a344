import DiscoveryGraph.Proofs.Snapshot.Layout
import DiscoveryGraph.Proofs.Text.Utf8

/-!
# Messages and snapshots

The message of a snapshot is its layout with zeros for fillers, and decoding
accepts the messages that begin with bytes that fit the layout of a snapshot.
Two statements follow.  Whatever follows a message, and whatever its options are,
the snapshot that was written is read.  Conversely, a message that is read is a
written message up to its fillers and what follows it, except that a text with
U+0000 is read but not written.
-/

namespace DiscoveryGraph.Snapshot

open Cdr

/-- What each byte of the message of a snapshot is for.  The options of the
header are fillers. -/
def slots (s : Snapshot) : List Slot :=
  [.content 0, .content 1, .filler, .filler] ++ (Layout.ofScript s.steps).slots 0

theorem length_slots (s : Snapshot) :
    s.slots.length = 4 + ((Layout.ofScript s.steps).slots 0).length := by
  rw [slots, List.length_append]
  rfl

/-- The texts of the snapshot do not contain U+0000. -/
def TerminatorFree (s : Snapshot) : Prop :=
  ∀ n ∈ s.nodes, '\x00' ∉ n.name.toList ∧ '\x00' ∉ n.ns.toList

theorem terminatorFree_iff (s : Snapshot) :
    s.TerminatorFree ↔ ∀ step ∈ s.steps, step.TerminatorFree := by
  rw [s.forall_mem_steps_iff fun _ => trivial]
  simp only [WriteStep.TerminatorFree, Utf8.zero_mem_encode_iff, true_and, and_true,
    TerminatorFree, and_comm]

/-! ## Encoding -/

section Encoding

variable {memory : Memory} {s : Snapshot}

theorem encode_eq (h : memory (encapsulation.length + s.sizeHint)) :
    s.encode memory =
      match (s.steps.forM (WriteStep.perform memory)).runFrom ⟨encapsulation, []⟩ with
      | (.ok (), w) => .ok w.finish
      | (.error e, _) => .error e := by
  rw [encode, Writer.start, if_pos h, write_eq_script]
  rfl

/-- Where the writer of a message gets to with the given fields. -/
def writerAfter (fields : List WriteStep) : Writer :=
  Writer.extend ⟨encapsulation, []⟩ (.ofScript fields)

theorem finish_writerAfter_steps :
    (writerAfter s.steps).finish = s.slots.map Slot.fill := by
  simp [writerAfter, Writer.extend, Writer.finish, Writer.offset, slots, encapsulation,
    Slot.fill]

/-- The memory suffices for the reservation and for the message. -/
def Affords (memory : Memory) (s : Snapshot) : Prop :=
  memory.Grants (encapsulation.length + s.sizeHint) ∧ memory.Grants s.slots.length

theorem Affords.start (h : Affords memory s) :
    memory (encapsulation.length + s.sizeHint) :=
  h.1 _ (Nat.le_refl _)

theorem Affords.layout (h : Affords memory s) :
    memory.Grants ((⟨encapsulation, []⟩ : Writer).finish.length +
      ((Layout.ofScript s.steps).slots (⟨encapsulation, []⟩ : Writer).offset).length) :=
  h.2.mono (Nat.le_of_eq s.length_slots.symm)

/-- The given fields alone bring the writer of a message to `w`. -/
def Written (memory : Memory) (fields : List WriteStep) (w : Writer) : Prop :=
  (fields.forM (WriteStep.perform memory)).runFrom ⟨encapsulation, []⟩ = (.ok (), w)

/-- After fields without faults the rest of the snapshot is written, unless memory
runs out before. -/
theorem encode_of_front (memory : Memory) {done rest : List WriteStep}
    (hsteps : s.steps = done ++ rest) (hdone : ∀ step ∈ done, step.fault? = none) :
    Written memory done (writerAfter done) ∧
        s.encode memory =
          (match (rest.forM (WriteStep.perform memory)).runFrom (writerAfter done) with
            | (.ok (), w) => .ok w.finish
            | (.error e, _) => .error e) ∨
      ¬Affords memory s ∧ s.encode memory = .error .badAlloc := by
  by_cases hstart : memory (encapsulation.length + s.sizeHint)
  · rw [encode_eq hstart, hsteps]
    rcases WriteStep.runFrom_script_append memory hdone rest
      ⟨encapsulation, []⟩ with ⟨hwritten, hrun⟩ | ⟨hdenied, next, hrun⟩
    · rw [hrun]
      exact Or.inl ⟨hwritten, rfl⟩
    · rw [hrun]
      rw [← hsteps] at hdenied
      exact Or.inr ⟨fun haffords => hdenied haffords.layout, rfl⟩
  · refine Or.inr ⟨fun haffords => hstart haffords.start, ?_⟩
    rw [encode, Writer.start, if_neg hstart]
    rfl

/-- A snapshot without faults is written, unless memory runs out. -/
theorem encode_of_faultless (memory : Memory)
    (h : ∀ step ∈ s.steps, step.fault? = none) :
    s.encode memory = .ok (s.slots.map Slot.fill) ∨
      ¬Affords memory s ∧ s.encode memory = .error .badAlloc := by
  refine (encode_of_front memory (List.append_nil _).symm h).imp_left ?_
  rintro ⟨-, hencode⟩
  rw [hencode]
  exact congrArg Except.ok finish_writerAfter_steps

/-- A snapshot is refused at its first fault, with all fields before it written,
unless memory runs out before. -/
theorem encode_of_first_fault (memory : Memory) {done rest : List WriteStep}
    {step : WriteStep} {fault : Fault} (hsteps : s.steps = done ++ step :: rest)
    (hdone : ∀ earlier ∈ done, earlier.fault? = none) (hstep : step.fault? = some fault) :
    Written memory done (writerAfter done) ∧
        s.encode memory = .error (.serialization (writerAfter done).offset fault) ∨
      ¬Affords memory s ∧ s.encode memory = .error .badAlloc := by
  refine (encode_of_front memory hsteps hdone).imp_left (And.imp_right ?_)
  intro hencode
  rw [hencode, WriteStep.runFrom_script_of_fault hstep]

/-- A message that is written is the layout of its snapshot with zeros for
fillers. -/
theorem eq_fill_of_encode {b : List UInt8} (h : s.encode memory = .ok b) :
    (∀ step ∈ s.steps, step.fault? = none) ∧ b = s.slots.map Slot.fill := by
  by_cases hfaults : ∀ step ∈ s.steps, step.fault? = none
  · rcases encode_of_faultless memory hfaults with hok | ⟨-, hdenied⟩
    · exact ⟨hfaults, Except.ok.inj (h.symm.trans hok)⟩
    · cases h.symm.trans hdenied
  · obtain ⟨done, step, rest, fault, hsteps, hdone, hstep⟩ :=
      WriteStep.exists_first_fault hfaults
    rcases encode_of_first_fault memory hsteps hdone hstep with
      ⟨-, hrefused⟩ | ⟨-, hdenied⟩
    · cases h.symm.trans hrefused
    · cases h.symm.trans hdenied

/-- A snapshot without faults is written if memory suffices. -/
theorem encode_of_fault?_eq_none (hmemory : Affords memory s)
    (h : ∀ step ∈ s.steps, step.fault? = none) :
    s.encode memory = .ok (s.slots.map Slot.fill) :=
  (encode_of_faultless memory h).resolve_right fun hdenied => hdenied.1 hmemory

/-- A snapshot with a fault is refused if memory suffices. -/
theorem encode_of_fault (hmemory : Affords memory s)
    (h : ¬∀ step ∈ s.steps, step.fault? = none) :
    ∃ step ∈ s.steps, ∃ offset fault,
      step.fault? = some fault ∧ s.encode memory = .error (.serialization offset fault) := by
  obtain ⟨done, step, rest, fault, hsteps, hdone, hfault⟩ := WriteStep.exists_first_fault h
  obtain ⟨-, hencode⟩ := (encode_of_first_fault memory hsteps hdone hfault).resolve_right
    fun hdenied => hdenied.1 hmemory
  refine ⟨step, ?_, _, fault, hfault, hencode⟩
  rw [hsteps]
  exact List.mem_append_right done List.mem_cons_self

end Encoding

/-! ## Decoding -/

section Decoding

variable {policy : LengthPolicy} {data : List UInt8} {s : Snapshot}

/-- The offset in the body of a message at which its reader stops. -/
def stopOffset (data : List UInt8) : Nat :=
  ((read .bounded).runFrom (.ofBody (data.drop encapsulation.length))).2.offset

theorem body_eq_ok_iff {rest : List UInt8} :
    body data = .ok rest ↔
      ∃ front, data = front ++ rest ∧
        Fits front [.content 0, .content 1, .filler, .filler] := by
  constructor
  · intro h
    unfold body at h
    split at h
    · next kind₀ kind₁ x y rest' =>
        split at h
        · next hkind =>
            obtain ⟨rfl, rfl⟩ : 0 = kind₀ ∧ 1 = kind₁ := by
              simpa [encapsulation] using hkind
            obtain rfl := Except.ok.inj h
            exact ⟨[0, 1, x, y], rfl,
              .cons rfl (.cons rfl (.cons trivial (.cons trivial .nil)))⟩
        · cases h
    · cases h
  · rintro ⟨front, rfl, hfits⟩
    obtain _ | ⟨hkind₀, _ | ⟨hkind₁, _ | ⟨-, _ | ⟨-, _ | _⟩⟩⟩⟩ := hfits
    cases hkind₀
    cases hkind₁
    rfl

theorem length_of_body_eq_ok {rest : List UInt8} (h : body data = .ok rest) :
    data.length = encapsulation.length + rest.length := by
  obtain ⟨front, rfl, hfits⟩ := body_eq_ok_iff.mp h
  rw [List.length_append, hfits.length_eq]
  rfl

theorem decodeWith_of_body_eq_error {e : Error} (h : body data = .error e) :
    decodeWith policy data = .error e := by
  rw [decodeWith, h]
  rfl

theorem decodeWith_of_body_eq_ok {rest : List UInt8} (h : body data = .ok rest) :
    decodeWith policy data = ((read policy).runFrom (.ofBody rest)).1 := by
  rw [decodeWith, h]
  rfl

theorem decodeWith_eq_ok_iff_read :
    decodeWith policy data = .ok s ↔
      ∃ rest next, body data = .ok rest ∧
        (read policy).runFrom (.ofBody rest) = (.ok s, next) := by
  rw [decodeWith]
  cases body data with
  | error e => simp [bind, Except.bind]
  | ok rest =>
      rcases hread : (read policy).runFrom (.ofBody rest) with ⟨result, next⟩
      simp [bind, Except.bind, hread]

/-- Decoding accepts what begins with bytes that fit the layout of a snapshot. -/
theorem decodeWith_eq_ok_iff (hpolicy : policy.Admits) :
    decodeWith policy data = .ok s ↔
      (∀ step ∈ s.steps, step.Sized) ∧
        ∃ front rest, data = front ++ rest ∧ Fits front s.slots := by
  rw [decodeWith_eq_ok_iff_read]
  simp only [body_eq_ok_iff, parses_read hpolicy _ s]
  constructor
  · rintro ⟨body, next, ⟨header, rfl, hheader⟩, hsized, front, hunread, hfront, -⟩
    refine ⟨hsized, header ++ front, next.unread, ?_, List.rel_append hheader hfront⟩
    rw [List.append_assoc]
    exact congrArg (header ++ ·) hunread
  · rintro ⟨hsized, front, rest, rfl, hfits⟩
    obtain ⟨header, front, rfl, hheader, hfront⟩ := fits_append_iff.mp hfits
    exact ⟨front ++ rest, ⟨front.length, rest⟩, ⟨header, List.append_assoc .., hheader⟩,
      hsized, front, rfl, hfront, (Nat.zero_add _).symm⟩

/-- The reader of a message stops where the layout of what it read ends. -/
theorem length_slots_of_decode (h : decode data = .ok s) :
    s.slots.length = 4 + stopOffset data := by
  obtain ⟨rest, next, hbody, hread⟩ := decodeWith_eq_ok_iff_read.mp h
  obtain ⟨header, rfl, hheader⟩ := body_eq_ok_iff.mp hbody
  have hdrop : (header ++ rest).drop encapsulation.length = rest :=
    List.drop_left' hheader.length_eq
  obtain ⟨-, htakes⟩ := (parses_read LengthPolicy.bounded_admits _ s next).mp hread
  rw [stopOffset, hdrop, hread, htakes.offset_eq, length_slots]
  simp [Reader.ofBody]

end Decoding

end DiscoveryGraph.Snapshot
