import DiscoveryGraph.Proofs.Cdr.Growth
import DiscoveryGraph.Proofs.Cdr.Progress

/-!
# Scripts read back

Every step that a writer takes has a counterpart that reads back what was written.  A reader
that takes the counterparts of the steps that succeeded gets the values that were written
and stops where the writer stopped, step by step, up to the end of the body.  Steps that were
refused have written nothing and leave no trace.
-/

namespace DiscoveryGraph.Cdr

/-! ## Steps and their counterparts -/

namespace WriteStep

/-- The step that reads back what a step writes. -/
def readBack : WriteStep → ReadStep
  | align alignment => .align alignment
  | bytes data => .bytes data.length
  | word _ => .word
  | count _ => .count 0
  | text _ => .text

/-- What is read back. -/
def value : WriteStep → ReadValue
  | align _ => .nothing
  | bytes data => .bytes data
  | word w => .number w.toNat
  | count n => .number n
  | text s => .text s

/-- A reader that finds the layout of a step reads the value of the step. -/
theorem runFrom_readBack {step : WriteStep} (hfault : step.fault? = none) {r next : Reader}
    (htakes : r.Takes step.layout next) :
    step.readBack.perform.runFrom r = (.ok step.value, next) := by
  obtain ⟨-, hsized⟩ := step.fault?_eq_none_iff.mp hfault
  cases step with
  | align alignment =>
      have hread : (Read.align alignment).runFrom r = (.ok (), next) :=
        Read.runFrom_align_eq_ok_iff.mpr htakes
      exact Action.runFrom_bind_eq_ok_iff.mpr ⟨_, next, hread, rfl⟩
  | bytes data =>
      have hread : (Read.bytes data.length).runFrom r = (.ok data, next) :=
        Read.runFrom_bytes_eq_ok_iff.mpr ⟨rfl, htakes⟩
      exact Action.runFrom_bind_eq_ok_iff.mpr ⟨_, next, hread, rfl⟩
  | word w =>
      have hread : Read.word.runFrom r = (.ok w.toNat, next) :=
        Read.runFrom_word_eq_ok_iff.mpr ⟨w.toNat_lt, by rwa [UInt32.ofNat_toNat]⟩
      exact Action.runFrom_bind_eq_ok_iff.mpr ⟨_, next, hread, rfl⟩
  | count n =>
      have hread : (Read.count .bounded 0).runFrom r = (.ok n, next) :=
        Read.runFrom_count_eq_ok_iff.mpr
          ⟨⟨hsized, htakes⟩, LengthPolicy.bounded_admits.believes (Nat.zero_le _)⟩
      exact Action.runFrom_bind_eq_ok_iff.mpr ⟨_, next, hread, rfl⟩
  | text s =>
      have hread : (Read.text .bounded).runFrom r = (.ok s, next) := by
        rw [Read.parses_text LengthPolicy.bounded_admits, List.forall_mem_singleton,
          Layout.ofScript_singleton]
        exact ⟨hsized, htakes⟩
      exact Action.runFrom_bind_eq_ok_iff.mpr ⟨_, next, hread, rfl⟩

end WriteStep

/-- A reader at the place where a field was written finds the field. -/
theorem Writer.takes_inBody {w : Writer} {l : Layout} {body : List UInt8}
    (hbody : (w.extend l).body <+: body) :
    (Reader.inBody body w.offset).Takes l (Reader.inBody body (w.extend l).offset) := by
  obtain ⟨tail, rfl⟩ := hbody
  refine ⟨(l.slots w.offset).map Slot.fill, ?_, fits_fill _, ?_⟩
  · simp [Reader.inBody, extend, offset]
  · simp [Reader.inBody]

/-! ## Scripts -/

/-- The steps of a script that succeed, each with the message after it. -/
def Writer.written (memory : Memory) : List WriteStep → Writer → List (WriteStep × Writer)
  | [], _ => []
  | step :: rest, w =>
      match (step.perform memory).runFrom w with
      | (.ok _, next) => (step, next) :: written memory rest next
      | (.error _, next) => written memory rest next

/-- The counterparts of the steps that succeed. -/
def Writer.replay (memory : Memory) (steps : List WriteStep) (w : Writer) : List ReadStep :=
  (written memory steps w).map fun entry => entry.1.readBack

/-- No step of a script fails for want of memory. -/
def Writer.HasRoom (memory : Memory) (steps : List WriteStep) (w : Writer) : Prop :=
  ∀ outcome ∈ trace (WriteStep.perform memory) steps w, outcome.1 ≠ .error .badAlloc

namespace Writer

variable {memory : Memory} {w : Writer}

theorem written_of_ok {step : WriteStep} {next : Writer}
    (h : (step.perform memory).runFrom w = (.ok (), next)) (rest : List WriteStep) :
    written memory (step :: rest) w = (step, next) :: written memory rest next := by
  rw [written, h]

theorem written_of_error {step : WriteStep} {e : Error} {next : Writer}
    (h : (step.perform memory).runFrom w = (.error e, next)) (rest : List WriteStep) :
    written memory (step :: rest) w = written memory rest next := by
  rw [written, h]

/-- A step for which there is room appends its layout or is refused where it begins. -/
theorem runFrom_perform_cases (step : WriteStep)
    (hroom : ((step.perform memory).runFrom w).1 ≠ .error .badAlloc) :
    (step.fault? = none ∧ (step.perform memory).runFrom w = (.ok (), w.extend step.layout)) ∨
      ∃ fault, step.fault? = some fault ∧
        (step.perform memory).runFrom w = (.error (.serialization w.offset fault), w) := by
  cases hfault : step.fault? with
  | none =>
      rcases WriteStep.appends_perform hfault w with hok | ⟨-, next, hfail⟩
      · exact Or.inl ⟨rfl, hok⟩
      · exact absurd (by rw [hfail]) hroom
  | some fault => exact Or.inr ⟨fault, rfl, WriteStep.runFrom_perform_of_fault hfault w⟩

/-- What a script writes from `w` on is read back from there on, if the body is not cut. -/
theorem reads_written {body : List UInt8} {steps : List WriteStep}
    (hroom : HasRoom memory steps w)
    (hbody : (after (WriteStep.perform memory) steps w).body <+: body) :
    trace ReadStep.perform (replay memory steps w) (Reader.inBody body w.offset) =
        (written memory steps w).map
          (fun entry => (.ok entry.1.value, Reader.inBody body entry.2.offset)) ∧
      after ReadStep.perform (replay memory steps w) (Reader.inBody body w.offset) =
        Reader.inBody body (after (WriteStep.perform memory) steps w).offset := by
  induction steps generalizing w with
  | nil => exact ⟨rfl, rfl⟩
  | cons step steps ih =>
      obtain ⟨hstep, hrest⟩ := List.forall_mem_cons.mp hroom
      rcases runFrom_perform_cases step hstep with ⟨hfault, hrun⟩ | ⟨fault, -, hrun⟩
      · rw [hrun] at hrest
        rw [after_cons hrun] at hbody ⊢
        have hgrows : (w.extend step.layout).GrowsTo _ := growsTo_after memory steps _
        have hread := WriteStep.runFrom_readBack hfault
          (takes_inBody (hgrows.body_prefix.trans hbody))
        obtain ⟨htrace, hend⟩ := ih hrest hbody
        rw [replay, written_of_ok hrun, List.map_cons, List.map_cons, trace_cons hread,
          after_cons hread]
        exact ⟨congrArg (List.cons _) htrace, hend⟩
      · rw [hrun] at hrest
        rw [after_cons hrun] at hbody ⊢
        rw [replay, written_of_error hrun]
        exact ih hrest hbody

end Writer

/-- Let a script be written after a header, with memory enough.  Then the body is read back:
the counterparts of the steps that succeeded all succeed, give what was written, stop at the
offsets at which the writer stopped, and leave nothing of the body. -/
theorem script_reads_back {memory : Memory} {header : List UInt8} {hint : Nat} {start : Writer}
    {steps : List WriteStep} (hstart : Writer.start memory header hint = .ok start)
    (hroom : start.HasRoom memory steps) :
    let replay := start.replay memory steps
    ∃ body, (after (WriteStep.perform memory) steps start).finish = header ++ body ∧
      (trace ReadStep.perform replay (Reader.ofBody body)).map
          (fun outcome => (outcome.1, outcome.2.offset)) =
        (start.written memory steps).map (fun entry => (.ok entry.1.value, entry.2.offset)) ∧
      (after ReadStep.perform replay (Reader.ofBody body)).remaining = 0 := by
  intro replay
  obtain rfl : start = ⟨header, []⟩ := by
    rw [Writer.start] at hstart
    split at hstart
    · exact (Except.ok.inj hstart).symm
    · contradiction
  set final := after (WriteStep.perform memory) steps ⟨header, []⟩ with hfinal
  have hheader : final.header = header := (Writer.growsTo_after memory steps _).header_eq
  obtain ⟨htrace, hend⟩ := Writer.reads_written hroom (List.prefix_refl final.body)
  rw [← hfinal] at hend
  refine ⟨final.body, ?_, ?_, ?_⟩
  · rw [Writer.finish, hheader]
  · rw [Reader.ofBody_eq_inBody]
    refine (congrArg _ htrace).trans ?_
    rw [List.map_map]
    rfl
  · rw [Reader.ofBody_eq_inBody]
    refine (congrArg Reader.remaining hend).trans ?_
    simp [Reader.inBody, Reader.remaining, Writer.offset]

/-- A script that aligns to three bytes and in which a text is refused. -/
def crookedScript : List WriteStep :=
  [.bytes [7], .align 3, .text "a\x00", .word 258, .text "é", .count 9]

/-- The message that the script begins with. -/
def crookedStart : Writer := ⟨[0, 1, 0, 0, 9], []⟩

theorem crookedScript_reads_back :
    Writer.start .machine [0, 1, 0, 0, 9] 16 = .ok crookedStart ∧
      crookedStart.HasRoom .machine crookedScript ∧
      ∃ body, (trace ReadStep.perform (crookedStart.replay .machine crookedScript)
          (Reader.ofBody body)).map (fun outcome => (outcome.1, outcome.2.offset)) =
        [(.ok (.bytes [7]), 1), (.ok .nothing, 3), (.ok (.number 258), 8),
          (.ok (.text "é"), 15), (.ok (.number 9), 20)] := by
  have hstart : Writer.start .machine [0, 1, 0, 0, 9] 16 = .ok crookedStart := rfl
  have hroom : crookedStart.HasRoom .machine crookedScript := by
    unfold Writer.HasRoom
    decide
  obtain ⟨body, -, htrace, -⟩ := script_reads_back hstart hroom
  refine ⟨hstart, hroom, body, htrace.trans ?_⟩
  decide

end DiscoveryGraph.Cdr
