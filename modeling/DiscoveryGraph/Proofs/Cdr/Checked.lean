import DiscoveryGraph.Proofs.Cdr.Addressing
import DiscoveryGraph.Proofs.Cdr.Progress

/-!
# Readers in 64-bit arithmetic

A machine keeps the whole body and an offset into it, computes with addresses and cuts
slices.  The checked readers do the same and are stuck where an operation has no result.  On
a body of less than half of all addresses they never are, and they come to what the readers
of lists and numbers come to, also where a script goes on after errors.
-/

namespace DiscoveryGraph.Cdr

variable {value : Type}

/-! ## Actions that can be stuck -/

/-- An action that moves an offset, can fail, and can be stuck. -/
abbrev Checked (value : Type) := ExceptT Error (StateT Nat Option) value

namespace Checked

/-- Runs an action from an offset; there is nothing if it is stuck. -/
def runFrom (action : Checked value) (offset : Nat) : Option (Except Error value × Nat) :=
  action.run.run offset

/-- Goes on with a result, and is stuck if there is none. -/
def result (x? : Option value) : Checked value := ExceptT.lift (StateT.lift x?)

/-- Fails with a fault found at `place`. -/
def refuse (place : Nat) (fault : Fault) : Checked value := throw (.serialization place fault)

@[simp]
theorem runFrom_pure (x : value) (offset : Nat) :
    runFrom (pure x) offset = some (.ok x, offset) := rfl

@[simp]
theorem runFrom_refuse (place : Nat) (fault : Fault) (offset : Nat) :
    runFrom (refuse place fault : Checked value) offset =
      some (.error (.serialization place fault), offset) := rfl

@[simp]
theorem runFrom_get (offset : Nat) :
    runFrom (get : Checked Nat) offset = some (.ok offset, offset) := rfl

@[simp]
theorem runFrom_set (next offset : Nat) :
    runFrom (set next : Checked PUnit) offset = some (.ok (), next) := rfl

@[simp]
theorem runFrom_result (x : value) (offset : Nat) :
    runFrom (result (some x)) offset = some (.ok x, offset) := rfl

theorem result_bind {other : Type} (x : value) (second : value → Checked other) :
    (result (some x) >>= second) = second x := rfl

/-- A second action runs from where the first one got to, if that succeeded. -/
@[simp]
theorem runFrom_bind {other : Type} (first : Checked value) (second : value → Checked other)
    (offset : Nat) :
    (first >>= second).runFrom offset =
      (first.runFrom offset).bind fun
        | (.ok x, next) => (second x).runFrom next
        | (.error e, next) => some (.error e, next) := by
  simp only [runFrom, ExceptT.run_bind, StateT.run_bind, Option.bind_eq_bind]
  congr 1
  funext ⟨outcome, next⟩
  cases outcome <;> rfl

end Checked

/-! ## Fields -/

namespace Checked

variable (body : List UInt8)

/-- The number of bytes behind an offset. -/
def remaining (offset : Nat) : Nat := body.length - offset

/-- The quotient rounded up. -/
def quotientUp (a b : Nat) : Checked Nat :=
  if 0 < a % b then result (sum? (a / b) 1) else pure (a / b)

/-- Moves on to the next multiple of `alignment`. -/
def align (alignment : Nat) : Checked Unit := do
  if alignment ≤ 1 then return
  else
    let offset ← get
    let next ← result (product? (← quotientUp offset alignment) alignment)
    if next ≤ body.length then set next
    else refuse offset .endOfBuffer

/-- Reads `count` bytes; an end that is no address is an end behind the body. -/
def bytes (count : Nat) : Checked (List UInt8) := do
  let offset ← get
  match (sum? offset count).filter (· ≤ body.length) with
  | some stop =>
      let data ← result (slice? body offset stop)
      set stop
      return data
  | none => refuse offset .endOfBuffer

/-- Reads a word where the reader stands, from a copy of as many bytes. -/
def unalignedWord : Checked Nat := do
  let data ← bytes body Word.size
  let copy ← result (if data.length = Word.size then some data else none)
  return Word.decode copy

/-- Reads an aligned word. -/
def word : Checked Nat := do
  align body Word.size
  unalignedWord body

/-- Reads a count of elements of at least `size` bytes each. -/
def count (size : Nat) : Checked Nat := do
  let start ← get
  let n ← word body
  if saturatingProduct n size ≤ remaining body (← get) then return n
  else refuse start .excessiveCount

/-- Splits the bytes of a text from their terminator. -/
def split (start length : Nat) (raw : List UInt8) : Checked String := do
  let middle ← result (difference? length 1)
  let front ← result (slice? raw 0 middle)
  let rest ← result (slice? raw middle raw.length)
  if rest = [0] then
    match Utf8.decode? front with
    | some s => return s
    | none => refuse start .illFormedText
  else refuse start .missingTerminator

/-- Reads a text with its terminator. -/
def text : Checked String := do
  let start ← get
  let length ← count body 1
  if length = 0 then refuse start .noTerminatorRoom
  else
    let raw ← bytes body length
    split start length raw

end Checked

/-- What a step reads, in checked arithmetic. -/
def ReadStep.check (body : List UInt8) : ReadStep → Checked ReadValue
  | align alignment => do Checked.align body alignment; return .nothing
  | bytes n => return .bytes (← Checked.bytes body n)
  | word => return .number (← Checked.word body)
  | unalignedWord => return .number (← Checked.unalignedWord body)
  | count size => return .number (← Checked.count body size)
  | text => return .text (← Checked.text body)

/-- The result and the offset after each step of a script; nothing if one is stuck. -/
def Checked.trace (body : List UInt8) :
    List ReadStep → Nat → Option (List (Except Error ReadValue × Nat))
  | [], _ => some []
  | step :: rest, offset => do
      let outcome ← (step.check body).runFrom offset
      let outcomes ← trace body rest outcome.2
      return outcome :: outcomes

/-! ## Agreement -/

namespace Checked

variable {body : List UInt8}

/-- The checked action is never stuck, stays in the body, and comes to what `read` comes to. -/
def Agrees (body : List UInt8) (checked : Checked value) (read : Read value) : Prop :=
  ∀ offset ≤ body.length, ∃ result next, next ≤ body.length ∧
    checked.runFrom offset = some (result, next) ∧
    read.runFrom (Reader.inBody body offset) = (result, Reader.inBody body next)

theorem agrees_pure (x : value) : Agrees body (pure x) (pure x) :=
  fun offset hoffset => ⟨.ok x, offset, hoffset, rfl, rfl⟩

theorem agrees_refuse (place : Nat) (fault : Fault) :
    Agrees body (refuse place fault : Checked value) (Read.refuse place fault) :=
  fun offset hoffset => ⟨_, offset, hoffset, rfl, rfl⟩

theorem Agrees.bind {other : Type} {first : Checked value} {second : value → Checked other}
    {readFirst : Read value} {readSecond : value → Read other}
    (hfirst : Agrees body first readFirst)
    (hsecond : ∀ x r next, readFirst.runFrom r = (.ok x, next) →
      Agrees body (second x) (readSecond x)) :
    Agrees body (first >>= second) (readFirst >>= readSecond) := by
  intro offset hoffset
  obtain ⟨outcome, mid, hmid, hchecked, hread⟩ := hfirst offset hoffset
  rw [runFrom_bind, hchecked, Action.runFrom_bind, hread]
  cases outcome with
  | error e => exact ⟨.error e, mid, hmid, rfl, rfl⟩
  | ok x => exact hsecond x _ _ hread mid hmid

/-- Both actions may look at the place where they are. -/
theorem agrees_of_place {checked : Nat → Checked value} {read : Reader → Read value}
    (h : ∀ offset ≤ body.length,
      Agrees body (checked offset) (read (Reader.inBody body offset))) :
    Agrees body (get >>= checked) (get >>= read) := by
  intro offset hoffset
  rw [runFrom_bind, runFrom_get, Action.runFrom_bind, Action.runFrom_get]
  exact h offset hoffset offset hoffset

theorem Agrees.ite {p q : Prop} [Decidable p] [Decidable q] (hpq : p ↔ q)
    {yes no : Checked value} {readYes readNo : Read value} (hyes : Agrees body yes readYes)
    (hno : ¬ q → Agrees body no readNo) :
    Agrees body (if p then yes else no) (if q then readYes else readNo) := by
  by_cases hq : q
  · rw [if_pos (hpq.mpr hq), if_pos hq]
    exact hyes
  · rw [if_neg (hpq.not.mpr hq), if_neg hq]
    exact hno hq

end Checked

/-! ## Fields agree -/

namespace Reader

variable {alignment : Nat}

theorem le_aligned (h : 0 < alignment) (offset : Nat) : offset ≤ aligned offset alignment := by
  have hdiv := Nat.div_add_mod offset alignment
  have hmod := Nat.mod_lt offset h
  rw [aligned_eq h]
  split
  · rw [Nat.succ_mul, Nat.mul_comm]
    omega
  · rw [Nat.mul_comm]
    omega

/-- An offset below half of all addresses does not leave them by alignment: the next
multiple is at most the alignment itself or less than twice the offset. -/
theorem aligned_lt_addressRange {offset : Nat} (h : 0 < alignment)
    (hoffset : offset ≤ 9223372036854775807) (halignment : alignment < addressRange) :
    aligned offset alignment < addressRange := by
  have hrange := addressRange_eq
  rw [aligned]
  by_cases hfirst : offset < alignment
  · have hquotient : (offset + alignment - 1) / alignment < 2 :=
      (Nat.div_lt_iff_lt_mul h).mpr (by omega)
    have hle : (offset + alignment - 1) / alignment * alignment ≤ 1 * alignment :=
      Nat.mul_le_mul_right alignment (by omega)
    omega
  · have hle : (offset + alignment - 1) / alignment * alignment ≤ offset + alignment - 1 :=
      Nat.div_mul_le_self _ _
    omega

end Reader

namespace Checked

variable {body : List UInt8} {offset alignment : Nat}

theorem runFrom_quotientUp (hoffset : offset < addressRange - 1) (alignment place : Nat) :
    (quotientUp offset alignment).runFrom place =
      some (.ok (if 0 < offset % alignment then offset / alignment + 1 else offset / alignment),
        place) := by
  have hquotient : offset / alignment ≤ offset := Nat.div_le_self offset alignment
  rw [quotientUp]
  split
  · rw [sum?_of_lt (by omega), runFrom_result]
  · rw [runFrom_pure]

/-- What is left of the body is far below the largest address, so that a product that
saturates is as good as the exact one. -/
theorem saturatingProduct_le_iff {n size room : Nat} (hroom : room ≤ 9223372036854775807) :
    saturatingProduct n size ≤ room ↔ n * size ≤ room := by
  have hrange := addressRange_eq
  rw [saturatingProduct]
  omega

/-- An end that is no address is behind the body as well. -/
theorem filter_sum?_of_lt {n : Nat} (hroom : body.length < offset + n) :
    (sum? offset n).filter (· ≤ body.length) = none := by
  by_cases hsum : offset + n < addressRange
  · rw [sum?_of_lt hsum]
    simp [hroom]
  · rw [sum?_of_le (Nat.le_of_not_lt hsum)]
    rfl

theorem agrees_split (start : Nat) {raw : List UInt8} (hraw : raw.length ≠ 0) :
    Agrees body (split start raw.length raw)
      (if raw.getLast? = some 0 then
        match Utf8.decode? raw.dropLast with
        | some s => pure s
        | none => Read.refuse start .illFormedText
      else Read.refuse start .missingTerminator) := by
  obtain ⟨front, last, hsplit⟩ :=
    (List.eq_nil_or_concat raw).resolve_left (mt List.length_eq_zero_iff.mpr hraw)
  obtain rfl : raw = front ++ [last] := by simpa using hsplit
  have hmiddle : difference? (front ++ [last]).length 1 = some front.length := by
    rw [List.length_append, List.length_singleton, difference?_of_le (Nat.le_add_left 1 _),
      Nat.add_sub_cancel]
  have hfront : slice? (front ++ [last]) 0 front.length = some front := by
    rw [slice?_of_le (Nat.zero_le _) (by simp), List.take_left, List.drop_zero]
  have hrest : slice? (front ++ [last]) front.length (front ++ [last]).length = some [last] := by
    rw [slice?_of_le (by simp) (Nat.le_refl _), List.take_length, List.drop_left]
  rw [split, hmiddle, result_bind, hfront, result_bind, hrest, result_bind, List.dropLast_concat]
  refine Agrees.ite (by simp) ?_ fun _ => agrees_refuse _ _
  cases Utf8.decode? front with
  | none => exact agrees_refuse _ _
  | some s => exact agrees_pure s

variable (hbody : body.length ≤ 9223372036854775807)

include hbody

theorem filter_sum?_of_le {n : Nat} (hroom : offset + n ≤ body.length) :
    (sum? offset n).filter (· ≤ body.length) = some (offset + n) := by
  have hrange := addressRange_eq
  rw [sum?_of_lt (by omega)]
  simp [hroom]

theorem agrees_align (halignment : alignment < addressRange) :
    Agrees body (align body alignment) (Read.align alignment) := by
  intro offset hoffset
  rw [Read.runFrom_align, align]
  by_cases hone : alignment ≤ 1
  · rw [if_pos hone, if_pos hone]
    exact ⟨.ok (), offset, hoffset, rfl, rfl⟩
  · rw [if_neg hone, if_neg hone]
    have hpos : 0 < alignment := by omega
    have hrange := addressRange_eq
    have haligned := Reader.aligned_eq hpos offset
    have hle : offset ≤ Reader.aligned offset alignment := Reader.le_aligned hpos offset
    have hlt : Reader.aligned offset alignment < addressRange :=
      Reader.aligned_lt_addressRange hpos (Nat.le_trans hoffset hbody) halignment
    have hquotient :=
      runFrom_quotientUp (show offset < addressRange - 1 by omega) alignment offset
    have hproduct := product?_of_lt (haligned ▸ hlt)
    simp only [runFrom_bind, runFrom_get, Option.bind_some, hquotient, hproduct, runFrom_result,
      ← haligned, Reader.remaining_inBody]
    by_cases hend : Reader.aligned offset alignment ≤ body.length
    · have hroom : Reader.aligned offset alignment - offset ≤ body.length - offset := by omega
      refine ⟨.ok (), _, hend, by rw [if_pos hend, runFrom_set], ?_⟩
      rw [Reader.offset_inBody, if_pos hroom, Reader.advance_inBody, Nat.add_sub_cancel' hle]
    · have hroom : ¬ Reader.aligned offset alignment - offset ≤ body.length - offset := by omega
      refine ⟨_, offset, hoffset, by rw [if_neg hend, runFrom_refuse], ?_⟩
      rw [Reader.offset_inBody, if_neg hroom]

theorem agrees_bytes (n : Nat) : Agrees body (bytes body n) (Read.bytes n) := by
  intro offset hoffset
  rw [Read.runFrom_bytes, bytes, Reader.remaining_inBody]
  by_cases hroom : offset + n ≤ body.length
  · have hend := filter_sum?_of_le hbody hroom
    refine ⟨.ok ((body.drop offset).take n), offset + n, hroom, ?_, ?_⟩
    · simp only [runFrom_bind, runFrom_get, Option.bind_some, hend, slice?_add hroom,
        runFrom_result, runFrom_set, runFrom_pure]
    · rw [if_pos (by omega), Reader.advance_inBody]
      rfl
  · have hend := filter_sum?_of_lt (Nat.lt_of_not_le hroom)
    refine ⟨_, offset, hoffset, ?_, if_neg (by omega)⟩
    simp [hend]

theorem agrees_unalignedWord :
    Agrees body (unalignedWord body) Read.unalignedWord := by
  refine (agrees_bytes hbody _).bind fun data r next hdata => ?_
  obtain ⟨hlength, -⟩ := Read.runFrom_bytes_eq_ok_iff.mp hdata
  intro offset hoffset
  refine ⟨.ok (Word.decode data), offset, hoffset, ?_, rfl⟩
  rw [if_pos hlength]
  rfl

theorem agrees_word :
    Agrees body (word body) Read.word :=
  (agrees_align hbody (by decide)).bind fun _ _ _ _ => agrees_unalignedWord hbody

theorem agrees_count (size : Nat) :
    Agrees body (count body size) (Read.count .bounded size) := by
  refine agrees_of_place fun start _ => (agrees_word hbody).bind fun n _ _ _ => ?_
  refine agrees_of_place fun here _ => Agrees.ite ?_ (agrees_pure n) fun _ => agrees_refuse _ _
  rw [remaining, saturatingProduct_le_iff (by omega), Reader.remaining_inBody]
  exact decide_eq_true_iff.symm

theorem agrees_text :
    Agrees body (text body) (Read.text .bounded) := by
  refine agrees_of_place fun start _ => (agrees_count hbody 1).bind fun length _ _ _ => ?_
  refine Agrees.ite Iff.rfl (agrees_refuse _ _) fun hlength => ?_
  refine (agrees_bytes hbody length).bind fun raw _ _ hraw => ?_
  obtain ⟨rfl, -⟩ := Read.runFrom_bytes_eq_ok_iff.mp hraw
  exact agrees_split start hlength

end Checked

/-! ## Scripts agree -/

/-- The numbers that a step is given are addresses. -/
def ReadStep.Addressed : ReadStep → Prop
  | align alignment => alignment < addressRange
  | bytes n => n < addressRange
  | count size => size < addressRange
  | _ => True

instance (step : ReadStep) : Decidable step.Addressed := by
  cases step <;> unfold ReadStep.Addressed <;> infer_instance

namespace Checked

variable {body : List UInt8}

theorem agrees_check (hbody : body.length ≤ 9223372036854775807) {step : ReadStep}
    (hstep : step.Addressed) : Agrees body (step.check body) step.perform := by
  cases step with
  | align alignment => exact (agrees_align hbody hstep).bind fun _ _ _ _ => agrees_pure _
  | bytes n => exact (agrees_bytes hbody n).bind fun _ _ _ _ => agrees_pure _
  | word => exact (agrees_word hbody).bind fun _ _ _ _ => agrees_pure _
  | unalignedWord => exact (agrees_unalignedWord hbody).bind fun _ _ _ _ => agrees_pure _
  | count size => exact (agrees_count hbody size).bind fun _ _ _ _ => agrees_pure _
  | text => exact (agrees_text hbody).bind fun _ _ _ _ => agrees_pure _

theorem trace_eq (hbody : body.length ≤ 9223372036854775807) {steps : List ReadStep}
    (hsteps : ∀ step ∈ steps, step.Addressed) {offset : Nat} (hoffset : offset ≤ body.length) :
    trace body steps offset =
      some ((Cdr.trace ReadStep.perform steps (Reader.inBody body offset)).map
        fun outcome => (outcome.1, outcome.2.offset)) := by
  induction steps generalizing offset with
  | nil => rfl
  | cons step steps ih =>
      rw [List.forall_mem_cons] at hsteps
      obtain ⟨outcome, next, hnext, hcheck, hread⟩ := agrees_check hbody hsteps.1 offset hoffset
      rw [trace, hcheck, Option.bind_eq_bind, Option.bind_some, ih hsteps.2 hnext,
        trace_cons hread]
      rfl

end Checked

/-- On a body of fewer than half of all addresses, every script of reading steps does without
an overflow or a slice out of range, whatever fails.  Each step goes forward inside the body,
and an error of a step is a fault between the places where it began and where it stopped. -/
theorem script_stays_in_body {body : List UInt8} {steps : List ReadStep}
    (hbody : body.length ≤ 9223372036854775807) (hsteps : ∀ step ∈ steps, step.Addressed) :
    Checked.trace body steps 0 =
        some ((trace ReadStep.perform steps (Reader.ofBody body)).map
          fun outcome => (outcome.1, outcome.2.offset)) ∧
      ∀ (done : List ReadStep) (step : ReadStep),
        let r := after ReadStep.perform done (Reader.ofBody body)
        let outcome := step.perform.runFrom r
        r.offset ≤ outcome.2.offset ∧ outcome.2.offset ≤ body.length ∧
          outcome.2.offset + outcome.2.remaining = body.length ∧
          ∀ e, outcome.1 = .error e → ∃ offset fault,
            e = .serialization offset fault ∧ r.offset ≤ offset ∧ offset ≤ outcome.2.offset := by
  refine ⟨Checked.trace_eq hbody hsteps (Nat.zero_le _), ?_⟩
  intro done step r outcome
  have hstart : (Reader.ofBody body).Reaches r := Reader.reaches_after done _
  have hstep : r.MayComeTo r.offset outcome := step.forward_perform r (Nat.le_refl _)
  have hsum : outcome.2.offset + outcome.2.remaining = body.length := by
    rw [(hstart.trans hstep.reaches).offset_add_remaining]
    exact Nat.zero_add _
  exact ⟨hstep.reaches.offset_le, by omega, hsum, fun e he => hstep.exists_fault he⟩

/-- A text without its terminator, a word that is cut off, and steps that ask for as much as
64 bits can. -/
def hostileSteps : List ReadStep :=
  [.text, .align 18446744073709551615, .bytes 18446744073709551615, .word,
    .count 18446744073709551615]

def hostileBody : List UInt8 := [2, 0, 0, 0, 97, 98, 0, 0, 1, 0]

theorem hostileSteps_stay_in_body :
    hostileBody.length ≤ 9223372036854775807 ∧ (∀ step ∈ hostileSteps, step.Addressed) ∧
      Checked.trace hostileBody hostileSteps 0 =
        some [(.error (.serialization 0 .missingTerminator), 6),
          (.error (.serialization 6 .endOfBuffer), 6), (.error (.serialization 6 .endOfBuffer), 6),
          (.error (.serialization 8 .endOfBuffer), 8),
          (.error (.serialization 8 .endOfBuffer), 8)] := by
  have hbody : hostileBody.length ≤ 9223372036854775807 := by decide
  have hsteps : ∀ step ∈ hostileSteps, step.Addressed := by decide
  obtain ⟨htrace, -⟩ := script_stays_in_body hbody hsteps
  refine ⟨hbody, hsteps, htrace.trans ?_⟩
  decide

end DiscoveryGraph.Cdr
