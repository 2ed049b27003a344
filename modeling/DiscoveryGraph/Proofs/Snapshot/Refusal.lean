import DiscoveryGraph.Proofs.Snapshot.RoundTrip

/-!
# Snapshots that cannot be written

A snapshot has a message exactly if its texts do not contain U+0000 and its lengths fit
their words.  Otherwise it is refused at the first field for which this fails, where the
fields before that one end.  So a length that does not fit is never cut down to one that
does: behind what precedes it, a message has every length in full.
-/

namespace DiscoveryGraph

namespace Cdr

namespace WriteStep

/-- The length that a step announces. -/
def length? : WriteStep → Option Nat
  | count n => some n
  | text s => some (s.utf8ByteSize + 1)
  | _ => none

theorem lt_range_of_length? {step : WriteStep} {n : Nat}
    (h : step.length? = some n) (hsized : step.Sized) : n < Word.range := by
  cases step with
  | align | bytes | word => cases h
  | count | text =>
      obtain rfl := Option.some.inj h
      exact hsized

/-- A step writes the length that it announces first. -/
theorem layout_of_length? {step : WriteStep} {n : Nat}
    (h : step.length? = some n) :
    ∃ rest, step.layout = .word (UInt32.ofNat n) ++ rest := by
  cases step with
  | align | bytes | word => cases h
  | count =>
      obtain rfl := Option.some.inj h
      exact ⟨.empty, (Layout.append_empty _).symm⟩
  | text =>
      obtain rfl := Option.some.inj h
      exact ⟨_, rfl⟩

theorem reason_of_fault? {step : WriteStep} {fault : Fault}
    (h : step.fault? = some fault) :
    fault.reason =
      if step.TerminatorFree then "length exceeds u32" else "string contains NUL" := by
  unfold fault? at h
  split_ifs at h ⊢
  · obtain rfl := Option.some.inj h
    rfl
  · obtain rfl := Option.some.inj h
    rfl

end WriteStep

namespace Writer

/-- Behind what has been written and zeros up to the next multiple of four, the message has
a word that says `n`. -/
def GoesOnWith (w : Writer) (n : Nat) (message : List UInt8) : Prop :=
  ∃ word rest,
    message = w.finish ++ List.replicate (padding w.offset Word.size) 0 ++ word ++ rest ∧
      word.length = Word.size ∧ Word.decode word = n

theorem finish_extend_word (w : Writer) (value : UInt32) :
    (w.extend (.word value)).finish =
      w.finish ++ List.replicate (padding w.offset Word.size) 0 ++ Word.encode value := by
  rw [finish_extend, Layout.word, Layout.slots_append, Layout.slots_align,
    Layout.slots_ofBytes, List.map_append, List.map_replicate, List.map_map,
    Slot.fill_comp_content, List.map_id, Slot.fill_filler, List.append_assoc]

theorem goesOnWith_finish_extend (w : Writer) {n : Nat} (hn : n < Word.range) (l : Layout) :
    w.GoesOnWith n (w.extend (.word (UInt32.ofNat n) ++ l)).finish := by
  have hvalue : Word.decode (Word.encode (UInt32.ofNat n)) = n := by
    rw [Word.decode_encode, UInt32.toNat_ofNat_of_lt' hn]
  rw [extend_append, finish_extend, finish_extend_word]
  exact ⟨_, _, rfl, Word.length_encode _, hvalue⟩

end Writer

end Cdr

open Cdr

/-! ## What can be written -/

/-- The text does not contain U+0000, and its length with a terminator fits a word. -/
def WritableText (t : String) : Prop := '\x00' ∉ t.toList ∧ t.utf8ByteSize + 1 < Word.range

instance (t : String) : Decidable (WritableText t) := inferInstanceAs (Decidable (_ ∧ _))

/-- The names of the node can be written, and so can the numbers of its endpoints. -/
@[mk_iff]
structure Node.Writable (n : Node) : Prop where
  ns : WritableText n.ns
  name : WritableText n.name
  readers : n.readers.length < Word.range
  writers : n.writers.length < Word.range

instance (n : Node) : Decidable n.Writable := decidable_of_iff _ n.writable_iff.symm

namespace Snapshot

/-- The nodes can be written, and so can their number. -/
@[mk_iff]
structure Writable (s : Snapshot) : Prop where
  length_nodes : s.nodes.length < Word.range
  nodes : ∀ n ∈ s.nodes, n.Writable

instance (s : Snapshot) : Decidable s.Writable := decidable_of_iff _ s.writable_iff.symm

theorem writable_iff_fault?_eq_none (s : Snapshot) :
    s.Writable ↔ ∀ step ∈ s.steps, step.fault? = none := by
  have htext (t : String) : (WriteStep.text t).fault? = none ↔ WritableText t := by
    rw [WriteStep.fault?_eq_none_iff, WriteStep.TerminatorFree, WriteStep.Sized,
      Utf8.zero_mem_encode_iff, Utf8.length_encode, WritableText]
  have hcount (n : Nat) : (WriteStep.count n).fault? = none ↔ n < Word.range := by
    rw [WriteStep.fault?_eq_none_iff]
    exact and_iff_right trivial
  rw [s.forall_mem_steps_iff fun _ => rfl, writable_iff]
  simp only [htext, hcount, Node.writable_iff]

/-! ## What is written, and where writing stops -/

variable {memory : Memory} {s : Snapshot}

theorem encode_ne_badAlloc_of_affords (h : Affords memory s) :
    s.encode memory ≠ .error .badAlloc := by
  intro hdenied
  by_cases hfaults : ∀ step ∈ s.steps, step.fault? = none
  · cases (encode_of_fault?_eq_none h hfaults).symm.trans hdenied
  · obtain ⟨-, -, offset, fault, -, hrefused⟩ := encode_of_fault h hfaults
    cases hrefused.symm.trans hdenied

theorem writerAfter_append_cons (done rest : List WriteStep) (step : WriteStep) :
    writerAfter (done ++ step :: rest) =
      (writerAfter done).extend (step.layout ++ .ofScript rest) := by
  rw [writerAfter, Layout.ofScript_append, Layout.ofScript_cons, Writer.extend_append]
  rfl

/-- A message has in full every length that its snapshot announces. -/
theorem goesOnWith_of_encode {b : List UInt8} (h : s.encode memory = .ok b)
    {done rest : List WriteStep} {field : WriteStep} {n : Nat}
    (hsteps : s.steps = done ++ field :: rest) (hn : field.length? = some n) :
    Written memory done (writerAfter done) ∧ (writerAfter done).GoesOnWith n b := by
  obtain ⟨hfaults, rfl⟩ := eq_fill_of_encode h
  rw [hsteps, List.forall_mem_append, List.forall_mem_cons] at hfaults
  obtain ⟨hdone, hfield, -⟩ := hfaults
  constructor
  · rcases encode_of_front memory hsteps hdone with ⟨hwritten, -⟩ | ⟨-, hdenied⟩
    · exact hwritten
    · cases h.symm.trans hdenied
  · have hsized := (field.fault?_eq_none_iff.mp hfield).2
    obtain ⟨after, hlayout⟩ := WriteStep.layout_of_length? hn
    rw [← finish_writerAfter_steps, hsteps, writerAfter_append_cons, hlayout,
      Layout.append_assoc]
    exact Writer.goesOnWith_finish_extend _ (WriteStep.lt_range_of_length? hn hsized) _

/-- Unless memory runs out, which it does not where it suffices, a snapshot is written exactly
if it can be, and otherwise refused at its first field that cannot be written, at the offset
that the fields before it have reached.  What is written announces no other lengths than the
snapshot has. -/
theorem encode_eq_ok_iff_writable (memory : Memory) (s : Snapshot) :
    (Affords memory s → s.encode memory ≠ .error .badAlloc) ∧
    (s.encode memory ≠ .error .badAlloc →
      ((∃ b, s.encode memory = .ok b) ↔ s.Writable) ∧
      (¬s.Writable → ∃ done field rest fault w,
        s.steps = done ++ field :: rest ∧
        (∀ earlier ∈ done, earlier.fault? = none) ∧
        field.fault? = some fault ∧
        Written memory done w ∧
        s.encode memory = .error (.serialization w.offset fault) ∧
        fault.reason =
          if field.TerminatorFree then "length exceeds u32" else "string contains NUL")) ∧
    ∀ b, s.encode memory = .ok b → ∀ done field rest n,
      s.steps = done ++ field :: rest → field.length? = some n →
        ∃ w, Written memory done w ∧ w.GoesOnWith n b := by
  refine ⟨encode_ne_badAlloc_of_affords, fun hmemory => ?_, ?_⟩
  · rw [writable_iff_fault?_eq_none]
    by_cases hfaults : ∀ step ∈ s.steps, step.fault? = none
    · have hok := (encode_of_faultless memory hfaults).resolve_right fun h => hmemory h.2
      exact ⟨iff_of_true ⟨_, hok⟩ hfaults, fun h => (h hfaults).elim⟩
    · obtain ⟨done, field, rest, fault, hsteps, hdone, hfield⟩ :=
        WriteStep.exists_first_fault hfaults
      obtain ⟨hwritten, hrefused⟩ :=
        (encode_of_first_fault memory hsteps hdone hfield).resolve_right fun h => hmemory h.2
      have hnone : ¬∃ b, s.encode memory = .ok b := by
        rintro ⟨b, hok⟩
        cases hok.symm.trans hrefused
      exact ⟨iff_of_false hnone hfaults, fun _ => ⟨done, field, rest, fault, _, hsteps, hdone,
        hfield, hwritten, hrefused, field.reason_of_fault? hfield⟩⟩
  · intro b hb done field rest n hsteps hn
    exact ⟨_, goesOnWith_of_encode hb hsteps hn⟩

/-- The name of the second node contains U+0000. -/
def torn : Snapshot where
  participant := .padded (List.replicate 16 7)
  nodes :=
    [⟨⟨"é", ""⟩, [.padded (List.replicate 16 3)], []⟩, ⟨⟨"A\x00", "b"⟩, [], []⟩]

/-- The node is refused behind its namespace, at an offset that is not aligned. -/
theorem encode_torn :
    Affords .unlimited torn ∧ torn.encode .unlimited ≠ .error .badAlloc ∧ ¬torn.Writable ∧
      (¬∃ b, torn.encode .unlimited = .ok b) ∧
      ∃ done field rest fault w,
        torn.steps = done ++ field :: rest ∧ Written .unlimited done w ∧ w.offset = 66 ∧
        torn.encode .unlimited = .error (.serialization w.offset fault) ∧
        fault.reason = "string contains NUL" := by
  have haffords : Affords .unlimited torn := ⟨fun _ _ => rfl, fun _ _ => rfl⟩
  have hunwritable : ¬torn.Writable := by decide +kernel
  have hencode : torn.encode .unlimited = .error (.serialization 66 .embeddedTerminator) := by
    decide +kernel
  obtain ⟨hmemory, hdecided, -⟩ := encode_eq_ok_iff_writable .unlimited torn
  obtain ⟨hwritten, hrefused⟩ := hdecided (hmemory haffords)
  obtain ⟨done, field, rest, fault, w, hsteps, -, -, hdone, hfault, -⟩ := hrefused hunwritable
  obtain ⟨hoffset, rfl⟩ : w.offset = 66 ∧ fault = .embeddedTerminator := by
    simpa [eq_comm] using hfault.symm.trans hencode
  exact ⟨haffords, hmemory haffords, hunwritable, fun hok => hunwritable (hwritten.mp hok),
    done, field, rest, _, w, hsteps, hdone, hoffset, hfault, rfl⟩

end Snapshot

end DiscoveryGraph
