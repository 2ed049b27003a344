import DiscoveryGraph.Proofs.Cdr.Layout

/-!
# What scripts write

A step of a script either has a fault, and then writes nothing, or appends its
layout.  Running out of memory is the only other outcome, and it is excluded as
soon as every buffer up to the size of the finished message can be had.  A script
therefore appends the layout of its steps, or stops at the first step with a
fault.
-/

namespace DiscoveryGraph.Cdr

/-! ## Memory -/

/-- Every buffer of at most `size` bytes can be had. -/
def Memory.Grants (memory : Memory) (size : Nat) : Prop :=
  ∀ n ≤ size, memory n = true

theorem Memory.Grants.mono {memory : Memory} {small large : Nat}
    (h : memory.Grants large) (hle : small ≤ large) : memory.Grants small :=
  fun n hn => h n (Nat.le_trans hn hle)

/-! ## Appending a layout -/

/-- The message with a further field, whose fillers are zero. -/
def Writer.extend (w : Writer) (l : Layout) : Writer :=
  { w with body := w.body ++ (l.slots w.offset).map Slot.fill }

namespace Writer

@[simp]
theorem offset_extend (w : Writer) (l : Layout) :
    (w.extend l).offset = w.offset + (l.slots w.offset).length := by
  simp [extend, offset]

theorem finish_extend (w : Writer) (l : Layout) :
    (w.extend l).finish = w.finish ++ (l.slots w.offset).map Slot.fill := by
  simp [extend, finish]

@[simp]
theorem length_finish_extend (w : Writer) (l : Layout) :
    (w.extend l).finish.length = w.finish.length + (l.slots w.offset).length := by
  rw [finish_extend, List.length_append, List.length_map]

@[simp]
theorem extend_empty (w : Writer) : w.extend .empty = w := by
  simp [extend]

theorem extend_append (w : Writer) (first second : Layout) :
    w.extend (first ++ second) = (w.extend first).extend second := by
  simp [extend, offset]

theorem extend_ofBytes (w : Writer) (data : List UInt8) :
    w.extend (.ofBytes data) = { w with body := w.body ++ data } := by
  rw [extend, Layout.slots_ofBytes, List.map_map, Slot.fill_comp_content, List.map_id]

theorem padding_of_alignment_le_one {alignment : Nat} (h : alignment ≤ 1)
    (offset : Nat) : padding offset alignment = 0 := by
  rcases Nat.le_one_iff_eq_zero_or_eq_one.mp h with rfl | rfl
  · simp [padding]
  · simp [padding, Nat.mod_one]

end Writer

/-- The action appends a field of the given layout, unless memory for it cannot
be had. -/
def Write.Appends (memory : Memory) (action : Write) (l : Layout) : Prop :=
  ∀ w : Writer,
    action.runFrom w = (.ok (), w.extend l) ∨
      ¬memory.Grants (w.finish.length + (l.slots w.offset).length) ∧
        ∃ next, action.runFrom w = (.error .badAlloc, next)

namespace Write

variable {memory : Memory}

theorem Appends.bind {first second : Write} {l₁ l₂ : Layout}
    (h₁ : Appends memory first l₁) (h₂ : Appends memory second l₂) :
    Appends memory (first >>= fun _ => second) (l₁ ++ l₂) := by
  intro w
  rw [Action.runFrom_bind]
  rcases h₁ w with hok | ⟨hdenied, next, hfail⟩
  · rw [hok, Writer.extend_append]
    rcases h₂ (w.extend l₁) with hok' | ⟨hdenied, next, hfail⟩
    · exact Or.inl hok'
    · refine Or.inr ⟨fun hgrants => hdenied (hgrants.mono ?_), next, hfail⟩
      simp [Nat.add_assoc]
  · rw [hfail]
    refine Or.inr ⟨fun hgrants => hdenied (hgrants.mono ?_), next, rfl⟩
    simp

theorem appends_bytes (data : List UInt8) :
    Appends memory (bytes memory data) (.ofBytes data) := by
  intro w
  rw [runFrom_bytes, Writer.extend_ofBytes]
  by_cases hmemory : memory (w.finish.length + data.length)
  · exact Or.inl (if_pos hmemory)
  · refine Or.inr ⟨fun hgrants => hmemory (hgrants _ ?_), w, if_neg hmemory⟩
    simp

theorem appends_align (alignment : Nat) :
    Appends memory (align memory alignment) (.align alignment) := by
  intro w
  rw [runFrom_align]
  by_cases halignment : alignment ≤ 1
  · rw [if_pos halignment]
    refine Or.inl ?_
    simp [Writer.extend, Writer.padding_of_alignment_le_one halignment]
  · rw [if_neg halignment]
    have hbytes : Appends memory _ _ :=
      appends_bytes (List.replicate (Writer.padding w.offset alignment) 0)
    specialize hbytes w
    simpa [Writer.extend, Slot.fill] using hbytes

theorem appends_word (value : UInt32) :
    Appends memory (word memory value) (.word value) :=
  (appends_align Word.size).bind (appends_bytes (Word.encode value))

end Write

/-! ## Steps -/

namespace WriteStep

/-- What a step occupies. -/
def layout : WriteStep → Layout
  | align alignment => .align alignment
  | bytes data => .ofBytes data
  | word value => .word value
  | count n => .word (UInt32.ofNat n)
  | text s =>
      .word (UInt32.ofNat ((Utf8.encode s).length + 1)) ++
        .ofBytes (Utf8.encode s ++ [0])

/-- The length that a step writes fits a word. -/
def Sized : WriteStep → Prop
  | count n => n < Word.range
  | text s => (Utf8.encode s).length + 1 < Word.range
  | _ => True

/-- The text that a step writes does not contain the terminator. -/
def TerminatorFree : WriteStep → Prop
  | text s => 0 ∉ Utf8.encode s
  | _ => True

instance (step : WriteStep) : Decidable step.Sized := by
  cases step <;> unfold Sized <;> infer_instance

instance (step : WriteStep) : Decidable step.TerminatorFree := by
  cases step <;> unfold TerminatorFree <;> infer_instance

/-- Why a step is refused, if it is. -/
def fault? (step : WriteStep) : Option Fault :=
  if step.TerminatorFree then
    if step.Sized then none else some .lengthOverflow
  else some .embeddedTerminator

theorem fault?_eq_none_iff (step : WriteStep) :
    step.fault? = none ↔ step.TerminatorFree ∧ step.Sized := by
  by_cases hfree : step.TerminatorFree <;> by_cases hsized : step.Sized <;>
    simp [fault?, hfree, hsized]

variable {memory : Memory}

theorem appends_count {n : Nat} (h : n < Word.range) :
    Write.Appends memory (Write.count memory n) (.word (UInt32.ofNat n)) := by
  rw [Write.count, if_pos h]
  exact Write.appends_word (UInt32.ofNat n)

/-- A step without a fault appends its layout. -/
theorem appends_perform {step : WriteStep} (h : step.fault? = none) :
    Write.Appends memory (step.perform memory) step.layout := by
  obtain ⟨hfree, hsized⟩ := step.fault?_eq_none_iff.mp h
  cases step with
  | align alignment => exact Write.appends_align alignment
  | bytes data => exact Write.appends_bytes data
  | word value => exact Write.appends_word value
  | count n => exact appends_count hsized
  | text s =>
      have hcontains : ¬(Utf8.encode s).contains 0 := by
        rw [List.contains_iff_mem]
        exact hfree
      have hlayout : (text s).layout =
          .word (UInt32.ofNat ((Utf8.encode s).length + 1)) ++
            (.ofBytes (Utf8.encode s) ++ .ofBytes [0]) := by
        rw [← Layout.ofBytes_append]
        rfl
      rw [perform, Write.text, if_neg hcontains, hlayout]
      exact (appends_count hsized).bind
        ((Write.appends_bytes _).bind (Write.appends_bytes _))

/-- A step with a fault is refused where it begins and writes nothing. -/
theorem runFrom_perform_of_fault {step : WriteStep} {fault : Fault}
    (h : step.fault? = some fault) (w : Writer) :
    (step.perform memory).runFrom w = (.error (.serialization w.offset fault), w) := by
  cases step with
  | align alignment => simp [fault?, TerminatorFree, Sized] at h
  | bytes data => simp [fault?, TerminatorFree, Sized] at h
  | word value => simp [fault?, TerminatorFree, Sized] at h
  | count n =>
      by_cases hsized : n < Word.range
      · simp [fault?, TerminatorFree, Sized, hsized] at h
      · obtain rfl : Fault.lengthOverflow = fault := by
          simpa [fault?, TerminatorFree, Sized, hsized] using h
        simp [perform, Write.count, hsized, Write.refuse]
  | text s =>
      by_cases hfree : 0 ∈ Utf8.encode s
      · obtain rfl : Fault.embeddedTerminator = fault := by
          simpa [fault?, TerminatorFree, hfree] using h
        simp [perform, Write.text, hfree, Write.refuse]
      · by_cases hsized : (Utf8.encode s).length + 1 < Word.range
        · simp [fault?, TerminatorFree, Sized, hfree, hsized] at h
        · obtain rfl : Fault.lengthOverflow = fault := by
            simpa [fault?, TerminatorFree, Sized, hfree, hsized] using h
          simp [perform, Write.text, Write.count, hfree, hsized, Write.refuse]

end WriteStep

/-! ## Scripts -/

/-- What the steps of a script occupy one after another. -/
def Layout.ofScript (steps : List WriteStep) : Layout :=
  steps.foldr (fun step l => step.layout ++ l) .empty

@[simp]
theorem Layout.ofScript_nil : ofScript [] = .empty := rfl

@[simp]
theorem Layout.ofScript_cons (step : WriteStep) (steps : List WriteStep) :
    ofScript (step :: steps) = step.layout ++ ofScript steps := rfl

theorem Layout.ofScript_singleton (step : WriteStep) :
    ofScript [step] = step.layout := by
  simp

theorem Layout.ofScript_append (first second : List WriteStep) :
    ofScript (first ++ second) = ofScript first ++ ofScript second := by
  induction first with
  | nil => simp
  | cons step first ih => simp [ih, append_assoc]

namespace WriteStep

variable {memory : Memory}

/-- A script without faults appends its layout. -/
theorem appends_script {steps : List WriteStep}
    (h : ∀ step ∈ steps, step.fault? = none) :
    Write.Appends memory (steps.forM (perform memory)) (.ofScript steps) := by
  induction steps with
  | nil =>
      intro w
      refine Or.inl ?_
      simp
  | cons step steps ih =>
      rw [List.forall_mem_cons] at h
      rw [Layout.ofScript_cons, List.forM_eq_forM, List.forM_cons]
      exact (appends_perform h.1).bind (ih h.2)

/-- A script with a fault has a first one. -/
theorem exists_first_fault {steps : List WriteStep}
    (h : ¬∀ step ∈ steps, step.fault? = none) :
    ∃ done step rest fault,
      steps = done ++ step :: rest ∧
      (∀ earlier ∈ done, earlier.fault? = none) ∧
      step.fault? = some fault := by
  induction steps with
  | nil => simp at h
  | cons first steps ih =>
      cases hfault : first.fault? with
      | some fault => exact ⟨[], first, steps, fault, rfl, by simp, hfault⟩
      | none =>
          have hrest : ¬∀ step ∈ steps, step.fault? = none := fun hall =>
            h (List.forall_mem_cons.mpr ⟨hfault, hall⟩)
          obtain ⟨done, step, rest, fault, rfl, hdone, hstep⟩ := ih hrest
          exact ⟨first :: done, step, rest, fault, rfl,
            List.forall_mem_cons.mpr ⟨hfault, hdone⟩, hstep⟩

/-- A script whose first step has a fault is refused where it begins. -/
theorem runFrom_script_of_fault {step : WriteStep} {fault : Fault}
    (h : step.fault? = some fault) (rest : List WriteStep) (w : Writer) :
    ((step :: rest).forM (perform memory)).runFrom w =
      (.error (.serialization w.offset fault), w) := by
  rw [List.forM_eq_forM, List.forM_cons, Action.runFrom_bind, runFrom_perform_of_fault h]

/-- A script goes on with `rest` where `done` has been written, unless memory runs
out before. -/
theorem runFrom_script_append (memory : Memory) {done : List WriteStep}
    (h : ∀ step ∈ done, step.fault? = none) (rest : List WriteStep) (w : Writer) :
    (done.forM (perform memory)).runFrom w = (.ok (), w.extend (.ofScript done)) ∧
        ((done ++ rest).forM (perform memory)).runFrom w =
          (rest.forM (perform memory)).runFrom (w.extend (.ofScript done)) ∨
      ¬memory.Grants
          (w.finish.length + ((Layout.ofScript (done ++ rest)).slots w.offset).length) ∧
        ∃ next, ((done ++ rest).forM (perform memory)).runFrom w =
          (.error .badAlloc, next) := by
  have happends : Write.Appends memory (done.forM (perform memory)) (.ofScript done) :=
    appends_script h
  rw [List.forM_eq_forM, List.forM_append, Action.runFrom_bind]
  rcases happends w with hok | ⟨hdenied, next, hfail⟩
  · rw [List.forM_eq_forM] at hok
    rw [hok]
    exact Or.inl ⟨rfl, rfl⟩
  · rw [List.forM_eq_forM] at hfail
    rw [hfail]
    refine Or.inr ⟨fun hgrants => hdenied (hgrants.mono ?_), next, rfl⟩
    simp [Layout.ofScript_append]

end WriteStep

end DiscoveryGraph.Cdr
