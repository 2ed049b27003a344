import DiscoveryGraph.Proofs.Cdr.Replay

/-!
# Where steps put what they write

A step of a script writes its content at the next offset of the body that its alignment
allows, with zeros before it, and the size of the header plays no part in that.  A step that
is refused writes nothing, not even the zeros.  What was written before stays where it is,
whether later steps succeed or fail.
-/

namespace DiscoveryGraph.Cdr

/-! ## Content and alignment -/

namespace WriteStep

/-- The offset at which the content of a step begins is a multiple of this number.  No
alignment is the same as an alignment to single bytes. -/
def alignment : WriteStep → Nat
  | align n => max n 1
  | bytes _ => 1
  | word _ | count _ | text _ => Word.size

/-- What a step writes behind its padding. -/
def content : WriteStep → List UInt8
  | align _ => []
  | bytes data => data
  | word value => Word.encode value
  | count n => Word.encode (UInt32.ofNat n)
  | text s => Word.encode (UInt32.ofNat ((Utf8.encode s).length + 1)) ++ Utf8.encode s ++ [0]

theorem alignment_pos (step : WriteStep) : 0 < step.alignment := by
  cases step with
  | align n => exact Nat.lt_of_lt_of_le Nat.zero_lt_one (Nat.le_max_right n 1)
  | bytes => exact Nat.zero_lt_one
  | word | count | text => exact Nat.zero_lt_succ 3

end WriteStep

theorem Writer.padding_max_one (offset alignment : Nat) :
    padding offset (max alignment 1) = padding offset alignment := by
  by_cases h : alignment ≤ 1
  · rw [Nat.max_eq_right h, padding_of_alignment_le_one h,
      padding_of_alignment_le_one (Nat.le_refl 1)]
  · rw [Nat.max_eq_left (by omega)]

/-- A layout is written as zeros up to the alignment of the step and its content. -/
theorem WriteStep.fill_layout (step : WriteStep) (offset : Nat) :
    (step.layout.slots offset).map Slot.fill =
      List.replicate (Writer.padding offset step.alignment) 0 ++ step.content := by
  cases step with
  | align n => simp [layout, alignment, content, Writer.padding_max_one, Slot.fill]
  | bytes data =>
      have hpadding : Writer.padding offset 1 = 0 :=
        Writer.padding_of_alignment_le_one (Nat.le_refl 1) offset
      simp [layout, alignment, content, hpadding]
  | word value => simp [layout, alignment, content, Layout.word, Slot.fill]
  | count n => simp [layout, alignment, content, Layout.word, Slot.fill]
  | text s => simp [layout, alignment, content, Layout.word, Slot.fill]

/-! ## What a step comes to -/

/-- What a step may come to from `w`: its result, and what it has appended to the body. -/
inductive Writer.Outcome (memory : Memory) (w : Writer) (step : WriteStep) :
    Except Error Unit → List UInt8 → Prop
  /-- The content is appended at the next offset that the alignment allows. -/
  | written {gap : Nat} (hfault : step.fault? = none) (hgap : gap < step.alignment)
      (haligned : step.alignment ∣ w.offset + gap) :
      Outcome memory w step (.ok ()) (List.replicate gap 0 ++ step.content)
  /-- Nothing is appended, and the error tells where the step began. -/
  | refused {fault : Fault} (hfault : step.fault? = some fault) :
      Outcome memory w step (.error (.serialization w.offset fault)) []
  /-- The message with the step cannot be had. -/
  | denied {more : List UInt8} (hdenied : ¬memory.Grants (w.extend step.layout).finish.length) :
      Outcome memory w step (.error .badAlloc) more

theorem Writer.outcome_perform (memory : Memory) (w : Writer) (step : WriteStep) :
    ∃ more, ((step.perform memory).runFrom w).2 = { w with body := w.body ++ more } ∧
      w.Outcome memory step ((step.perform memory).runFrom w).1 more := by
  cases hfault : step.fault? with
  | some fault =>
      rw [WriteStep.runFrom_perform_of_fault hfault]
      exact ⟨[], by rw [List.append_nil], .refused hfault⟩
  | none =>
      have happends : Write.Appends memory (step.perform memory) step.layout :=
        WriteStep.appends_perform hfault
      have hgrows : w.GrowsTo ((step.perform memory).runFrom w).2 := step.grows_perform w
      rcases happends w with hok | ⟨hdenied, next, hfail⟩
      · have halignment := step.alignment_pos
        rw [hok, extend, step.fill_layout]
        exact ⟨_, rfl, .written hfault (padding_lt halignment _)
          (dvd_offset_add_padding halignment _)⟩
      · obtain ⟨more, hnext⟩ := hgrows.exists_append
        rw [← length_finish_extend] at hdenied
        refine ⟨more, hnext, ?_⟩
        rw [hfail]
        exact .denied hdenied

/-- Take any step of a script that begins with a header.  What the step finds is the header
and a body, and it goes on from there: it appends zeros up to its alignment in the body, less
than one alignment of them, and then its content; or it is refused, tells where it began and
appends nothing; or there is no room.  All that is appended stays in the message, whichever of
the later steps fail. -/
theorem script_appends {memory : Memory} {header : List UInt8} {hint : Nat} {start : Writer}
    (hstart : Writer.start memory header hint = .ok start) (done : List WriteStep)
    (step : WriteStep) (rest : List WriteStep) :
    let w := after (WriteStep.perform memory) done start
    let outcome := (step.perform memory).runFrom w
    ∃ more tail, w.finish = header ++ w.body ∧
      outcome.2 = { w with body := w.body ++ more } ∧
      (after (WriteStep.perform memory) (done ++ step :: rest) start).finish =
        outcome.2.finish ++ tail ∧
      w.Outcome memory step outcome.1 more := by
  intro w outcome
  obtain ⟨-, hempty⟩ := Writer.start_eq_ok_iff.mp hstart
  have hheader : w.header = header := by
    rw [(Writer.growsTo_after memory done start).header_eq, hempty]
  obtain ⟨more, hnext, houtcome⟩ := w.outcome_perform memory step
  obtain ⟨tail, hfinal⟩ := (Writer.growsTo_after memory rest outcome.2).exists_append
  refine ⟨more, tail, ?_, hnext, ?_, houtcome⟩
  · rw [Writer.finish, hheader]
  · have hafter : after (WriteStep.perform memory) (done ++ step :: rest) start =
        after (WriteStep.perform memory) rest outcome.2 := after_append done (step :: rest) start
    rw [hafter, hfinal, Writer.finish, Writer.finish, List.append_assoc]

/-- The word behind three bytes of the body gets one zero before it, also after a text that
was refused there.  The header of five bytes does not count. -/
theorem crookedScript_appends :
    Writer.start .machine [0, 1, 0, 0, 9] 16 = .ok crookedStart ∧
      ∃ tail, (after (WriteStep.perform .machine) crookedScript crookedStart).finish =
        [0, 1, 0, 0, 9] ++ [7, 0, 0] ++ ([0] ++ [2, 1, 0, 0]) ++ tail := by
  have hstart : Writer.start .machine [0, 1, 0, 0, 9] 16 = .ok crookedStart := rfl
  obtain ⟨more, tail, -, -, hfinal, -⟩ := script_appends hstart
    [.bytes [7], .align 3, .text "a\x00"] (.word 258) [.text "é", .count 9]
  refine ⟨hstart, tail, hfinal.trans (congrArg (· ++ tail) ?_)⟩
  decide

end DiscoveryGraph.Cdr
