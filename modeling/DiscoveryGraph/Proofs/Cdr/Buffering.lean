import DiscoveryGraph.Proofs.Cdr.Addressing
import DiscoveryGraph.Proofs.Cdr.Writing

/-!
# Writers in 64-bit arithmetic

A machine keeps a message in one buffer, with the number of bytes before the body, and
computes sizes and offsets with addresses.  A buffer has fewer bytes than half of all
addresses, and whoever asks for more gets an error.  Since room is reserved before it is
used, no step of a script overflows.  The one sum that comes before its reservation is that
of the header and the room asked for, and it overflows where it is no address.
-/

namespace DiscoveryGraph.Cdr

/-! ## Buffers -/

/-- The memory in which buffers of fewer bytes than half of all addresses can be had. -/
def Memory.half : Memory := .below (addressRange / 2)

theorem Memory.half_eq_true_iff {n : Nat} : half n = true ↔ n ≤ 9223372036854775807 := by
  have hrange := addressRange_eq
  rw [half, below, decide_eq_true_iff]
  omega

/-- A message and the number of its bytes that come before the body. -/
structure Buffer where
  bytes : List UInt8
  base : Nat
  deriving DecidableEq

/-- An action on a buffer that can fail, and that is stuck where an operation has no
result. -/
abbrev Buffering := Buffer → Option (Except Error Unit × Buffer)

namespace Buffer

variable (memory : Memory)

/-- The buffer in which a message stands. -/
def ofWriter (w : Writer) : Buffer := ⟨w.finish, w.header.length⟩

/-- Starts a message after `header`, with room for `hint` more bytes. -/
def start? (header : List UInt8) (hint : Nat) : Option (Except Error Buffer) := do
  let size ← sum? header.length hint
  return if memory size then .ok ⟨header, header.length⟩ else .error .badAlloc

/-- The number of bytes of the body. -/
def offset? (b : Buffer) : Option Nat := difference? b.bytes.length b.base

/-- Cuts the buffer, or fills it up with zeros, to a new size. -/
def resize (b : Buffer) (size : Nat) : Buffer :=
  { b with bytes := b.bytes.take size ++ List.replicate (size - b.bytes.length) 0 }

/-- Fails at the current offset. -/
def refuse (fault : Fault) : Buffering := fun b => do
  return (.error (.serialization (← b.offset?) fault), b)

/-- Goes on with a second action if the first one succeeds. -/
def andThen (first second : Buffering) : Buffering := fun b => do
  match ← first b with
  | (.ok (), next) => second next
  | (.error e, next) => return (.error e, next)

/-- Appends bytes as they are. -/
def append (data : List UInt8) : Buffering := fun b =>
  if memory (b.bytes.length + data.length) then
    some (.ok (), { b with bytes := b.bytes ++ data })
  else some (.error .badAlloc, b)

/-- The number of padding bytes from `offset` to the next multiple of `alignment`. -/
def padding? (offset alignment : Nat) : Option Nat := do
  return (← difference? alignment (offset % alignment)) % alignment

/-- Appends zeros up to the next multiple of `alignment`. -/
def align (alignment : Nat) : Buffering := fun b =>
  if alignment ≤ 1 then some (.ok (), b)
  else do
    let gap ← padding? (← b.offset?) alignment
    if memory (b.bytes.length + gap) then
      return (.ok (), b.resize (← sum? b.bytes.length gap))
    else return (.error .badAlloc, b)

/-- Appends an aligned word. -/
def word (value : UInt32) : Buffering :=
  andThen (align memory Word.size) (append memory (Word.encode value))

/-- Appends a count of elements, which has to fit a word. -/
def count (n : Nat) : Buffering :=
  if n < Word.range then word memory (UInt32.ofNat n) else refuse .lengthOverflow

/-- Appends a text, which must not contain the terminator. -/
def text (s : String) : Buffering := fun b =>
  if (Utf8.encode s).contains 0 then refuse .embeddedTerminator b
  else do
    let length ← sum? (Utf8.encode s).length 1
    andThen (count memory length)
      (andThen (append memory (Utf8.encode s)) (append memory [0])) b

end Buffer

/-- What a step writes into a buffer. -/
def WriteStep.buffering (memory : Memory) : WriteStep → Buffering
  | align alignment => Buffer.align memory alignment
  | bytes data => Buffer.append memory data
  | word value => Buffer.word memory value
  | count n => Buffer.count memory n
  | text s => Buffer.text memory s

/-- The result and the buffer after each step of a script; nothing if one is stuck. -/
def Buffer.trace (memory : Memory) :
    List WriteStep → Buffer → Option (List (Except Error Unit × Buffer))
  | [], _ => some []
  | step :: rest, b => do
      let outcome ← step.buffering memory b
      let outcomes ← trace memory rest outcome.2
      return outcome :: outcomes

/-! ## Agreement -/

namespace Buffer

/-- An outcome with the message in a buffer. -/
def buffered (outcome : Except Error Unit × Writer) : Except Error Unit × Buffer :=
  (outcome.1, ofWriter outcome.2)

/-- The action on buffers is never stuck and does what the writer does. -/
def Follows (buffering : Buffering) (write : Write) : Prop :=
  ∀ w, buffering (ofWriter w) = some (buffered (write.runFrom w))

theorem offset?_ofWriter (w : Writer) : (ofWriter w).offset? = some w.offset := by
  have hlength : w.finish.length = w.header.length + w.offset := by
    rw [Writer.finish, List.length_append, Writer.offset]
  rw [offset?, ofWriter, hlength, difference?_of_le (Nat.le_add_right _ _),
    Nat.add_sub_cancel_left]

theorem padding?_eq {alignment : Nat} (h : 0 < alignment) (offset : Nat) :
    padding? offset alignment = some (Writer.padding offset alignment) := by
  rw [padding?, difference?_of_le (Nat.le_of_lt (Nat.mod_lt _ h))]
  rfl

theorem append_ofWriter (w : Writer) (data : List UInt8) :
    { ofWriter w with bytes := (ofWriter w).bytes ++ data } =
      ofWriter { w with body := w.body ++ data } := by
  rw [ofWriter, ofWriter, Writer.finish, Writer.finish, List.append_assoc]

theorem resize_ofWriter (w : Writer) (gap : Nat) :
    (ofWriter w).resize ((ofWriter w).bytes.length + gap) =
      ofWriter { w with body := w.body ++ List.replicate gap 0 } := by
  rw [resize, List.take_of_length_le (Nat.le_add_right _ _), Nat.add_sub_cancel_left,
    append_ofWriter]

variable {memory : Memory}

theorem follows_refuse (fault : Fault) : Follows (refuse fault) (Write.refuse fault) := by
  intro w
  rw [refuse, offset?_ofWriter]
  rfl

theorem Follows.andThen {first second : Buffering} {write writeNext : Write}
    (h : Follows first write) (hnext : Follows second writeNext) :
    Follows (andThen first second) (write >>= fun _ => writeNext) := by
  intro w
  rw [Buffer.andThen, h w, Action.runFrom_bind]
  rcases write.runFrom w with ⟨e | _, next⟩
  · rfl
  · exact hnext next

theorem follows_append (data : List UInt8) :
    Follows (append memory data) (Write.bytes memory data) := by
  intro w
  rw [append, Write.runFrom_bytes, append_ofWriter]
  change (if memory (w.finish.length + data.length) then _ else _) = _
  split
  · rfl
  · rfl

/-- Room for the zeros is reserved first, so that the new size is an address. -/
theorem follows_align (alignment : Nat) :
    Follows (align .half alignment) (Write.align .half alignment) := by
  intro w
  rw [align, Write.runFrom_align]
  split
  · rfl
  · next halignment =>
      have hpos : 0 < alignment := by omega
      have hgap := padding?_eq hpos w.offset
      rw [offset?_ofWriter, Option.bind_eq_bind, Option.bind_some, hgap, Option.bind_some,
        Write.runFrom_bytes, List.length_replicate]
      change (if Memory.half (w.finish.length + _) then _ else _) = _
      split
      · next hroom =>
          have hsize := Memory.half_eq_true_iff.mp hroom
          have hsum : sum? (ofWriter w).bytes.length (Writer.padding w.offset alignment) =
              some ((ofWriter w).bytes.length + Writer.padding w.offset alignment) :=
            sum?_of_lt (Nat.lt_of_le_of_lt hsize (by decide))
          rw [hsum, Option.bind_some, resize_ofWriter]
          rfl
      · rfl

theorem follows_word (value : UInt32) :
    Follows (word .half value) (Write.word .half value) :=
  (follows_align Word.size).andThen (follows_append (Word.encode value))

theorem follows_count (n : Nat) : Follows (count .half n) (Write.count .half n) := by
  rw [count, Write.count]
  split
  · exact follows_word _
  · exact follows_refuse _

/-- The length of a text in memory is far from the largest address. -/
theorem follows_text {s : String} (hs : Memory.half (Utf8.encode s).length = true) :
    Follows (text .half s) (Write.text .half s) := by
  intro w
  have hrange := addressRange_eq
  have hlength := Memory.half_eq_true_iff.mp hs
  rw [text, Write.text]
  split
  · exact follows_refuse _ w
  · rw [sum?_of_lt (by omega)]
    exact (follows_count _).andThen ((follows_append _).andThen (follows_append _)) w

/-! ## Scripts -/

theorem follows_buffering {step : WriteStep}
    (hstep : ∀ s, step = .text s → Memory.half (Utf8.encode s).length = true) :
    Follows (step.buffering .half) (step.perform .half) := by
  cases step with
  | align alignment => exact follows_align alignment
  | bytes data => exact follows_append data
  | word value => exact follows_word value
  | count n => exact follows_count n
  | text s => exact follows_text (hstep s rfl)

theorem trace_ofWriter {steps : List WriteStep}
    (hsteps : ∀ s, WriteStep.text s ∈ steps → Memory.half (Utf8.encode s).length = true)
    (w : Writer) :
    trace .half steps (ofWriter w) =
      some ((Cdr.trace (WriteStep.perform .half) steps w).map buffered) := by
  induction steps generalizing w with
  | nil => rfl
  | cons step steps ih =>
      have hstep : Follows (step.buffering .half) (step.perform .half) :=
        follows_buffering fun s hs => hsteps s (by simp [hs])
      have hrest := ih fun s hs => hsteps s (List.mem_cons_of_mem step hs)
      rw [trace, hstep w, Option.bind_eq_bind, Option.bind_some, buffered, hrest]
      rfl

end Buffer

/-! ## The start -/

theorem Buffer.start?_eq (memory : Memory) (header : List UInt8) (hint : Nat) :
    start? memory header hint = (Writer.start? memory header hint).map (·.map ofWriter) := by
  by_cases hsum : header.length + hint < addressRange
  · rw [start?, Writer.start?, sum?_of_lt hsum, if_pos hsum, Writer.start]
    by_cases hroom : memory (header.length + hint) = true
    · simp [hroom, Except.map, ofWriter, Writer.finish]
    · simp [hroom, Except.map]
  · rw [start?, Writer.start?, sum?_of_le (Nat.le_of_not_lt hsum), if_neg hsum]
    rfl

theorem Writer.start?_half (header : List UInt8) (hint : Nat) :
    start? .half header hint =
      if header.length + hint ≤ 9223372036854775807 then some (.ok ⟨header, []⟩)
      else if header.length + hint < addressRange then some (.error .badAlloc)
      else none := by
  have hrange := addressRange_eq
  rw [start?, start]
  simp only [Memory.half_eq_true_iff]
  by_cases hroom : header.length + hint ≤ 9223372036854775807
  · rw [if_pos (by omega), if_pos hroom, if_pos hroom]
  · rw [if_neg hroom, if_neg hroom]

/-- On a machine of 64-bit addresses, a writer begins if a buffer can have the header and the
room asked for, and it is refused if their sum is an address and no buffer can have it.  A
sum that is no address overflows, and the writer has no result then.  This is the only sum
of a writer that can overflow: once it has begun, its steps do without, however far they
align. -/
theorem script_overflows_only_at_start (header : List UInt8) (hint : Nat) {steps : List WriteStep}
    (htexts : ∀ s, WriteStep.text s ∈ steps → Memory.half (Utf8.encode s).length = true) :
    Buffer.start? .half header hint =
        (Writer.start? .half header hint).map (·.map Buffer.ofWriter) ∧
      Writer.start? .half header hint =
        (if header.length + hint ≤ 9223372036854775807 then some (.ok ⟨header, []⟩)
        else if header.length + hint < addressRange then some (.error .badAlloc)
        else none) ∧
      ∀ start, Writer.start? .half header hint = some (.ok start) →
        Buffer.trace .half steps (Buffer.ofWriter start) =
          some ((trace (WriteStep.perform .half) steps start).map Buffer.buffered) :=
  ⟨Buffer.start?_eq .half header hint, Writer.start?_half header hint,
    fun start _ => Buffer.trace_ofWriter htexts start⟩

/-- A script that aligns as far as 64 bits can say, from an offset that is not zero. -/
def farScript : List WriteStep :=
  [.bytes [1], .align 18446744073709551615, .text "é", .count 4294967296]

/-- Of three hints, one lets a writer of one byte begin, one is refused, and one overflows. -/
theorem farScript_overflows_only_at_start :
    (∀ s, WriteStep.text s ∈ farScript → Memory.half (Utf8.encode s).length = true) ∧
      Buffer.start? .half [7] 18446744073709551615 = none ∧
      Writer.start? .half [7] 9223372036854775807 = some (.error .badAlloc) ∧
      Writer.start? .half [7] 9223372036854775806 = some (.ok ⟨[7], []⟩) ∧
      Buffer.trace .half farScript ⟨[7], 1⟩ =
        some [(.ok (), ⟨[7, 1], 1⟩), (.error .badAlloc, ⟨[7, 1], 1⟩),
          (.ok (), ⟨[7, 1, 0, 0, 0, 3, 0, 0, 0, 195, 169, 0], 1⟩),
          (.error (.serialization 11 .lengthOverflow),
            ⟨[7, 1, 0, 0, 0, 3, 0, 0, 0, 195, 169, 0], 1⟩)] := by
  have htexts : ∀ s, WriteStep.text s ∈ farScript →
      Memory.half (Utf8.encode s).length = true := by
    intro s hs
    obtain rfl : s = "é" := by simpa [farScript] using hs
    decide
  obtain ⟨hbuffer, hoverflow, -⟩ :=
    script_overflows_only_at_start [7] 18446744073709551615 htexts
  obtain ⟨-, hrefused, -⟩ := script_overflows_only_at_start [7] 9223372036854775807 htexts
  obtain ⟨-, hstart, htrace⟩ := script_overflows_only_at_start [7] 9223372036854775806 htexts
  have hbegun : Writer.start? .half [7] 9223372036854775806 = some (.ok ⟨[7], []⟩) :=
    hstart.trans (by decide)
  refine ⟨htexts, ?_, hrefused.trans (by decide), hbegun, ?_⟩
  · rw [hbuffer, hoverflow]
    decide
  · refine (htrace _ hbegun).trans ?_
    decide

/-- There are headers and hints of 64 bits whose sum overflows, where the writer should be
refused for want of memory. -/
theorem not_forall_start?_half :
    ¬∀ (header : List UInt8) (hint : Nat), Memory.half header.length = true →
      hint < addressRange →
      Writer.start? .half header hint ≠ none ∧
        (9223372036854775807 < header.length + hint →
          Writer.start? .half header hint = some (.error .badAlloc)) := by
  intro hall
  obtain ⟨hresult, -⟩ := hall [7] 18446744073709551615 (by decide) (by decide)
  exact hresult (by decide)

end DiscoveryGraph.Cdr
