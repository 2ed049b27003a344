import DiscoveryGraph.Cdr.Writer
import Mathlib.Data.List.Infix

/-!
# Writers only append

Whatever a writer does, and whether it succeeds or fails, the header and the bytes that
were written before stay as they are: the body of the writer is continued.
-/

namespace DiscoveryGraph.Cdr

variable {value : Type} {memory : Memory}

/-! ## Longer messages -/

/-- The message `next` is `w` with perhaps some more bytes in its body. -/
structure Writer.GrowsTo (w next : Writer) : Prop where
  header_eq : next.header = w.header
  body_prefix : w.body <+: next.body

namespace Writer

variable {w mid next : Writer}

theorem GrowsTo.refl (w : Writer) : w.GrowsTo w := ⟨rfl, List.prefix_refl _⟩

theorem GrowsTo.trans (h₁ : w.GrowsTo mid) (h₂ : mid.GrowsTo next) : w.GrowsTo next :=
  ⟨h₂.header_eq.trans h₁.header_eq, h₁.body_prefix.trans h₂.body_prefix⟩

theorem GrowsTo.exists_append (h : w.GrowsTo next) :
    ∃ more, next = { w with body := w.body ++ more } := by
  obtain ⟨hheader, more, hbody⟩ := h
  refine ⟨more, ?_⟩
  rw [hbody, ← hheader]

theorem growsTo_append (w : Writer) (data : List UInt8) :
    w.GrowsTo { w with body := w.body ++ data } :=
  ⟨rfl, List.prefix_append _ _⟩

end Writer

/-! ## Actions that write -/

/-- From every message the action comes to a longer one. -/
def Action.Grows (action : Action Writer value) : Prop :=
  ∀ w : Writer, w.GrowsTo (action.runFrom w).2

namespace Write

theorem grows_bind {other : Type} {first : Action Writer value}
    {second : value → Action Writer other} (hfirst : first.Grows)
    (hsecond : ∀ x, (second x).Grows) : (first >>= second).Grows := by
  intro w
  have hmid := hfirst w
  rw [Action.runFrom_bind]
  rcases hrun : first.runFrom w with ⟨e | x, mid⟩
  · rwa [hrun] at hmid
  · rw [hrun] at hmid
    exact hmid.trans (hsecond x mid)

theorem grows_refuse (fault : Fault) : (refuse fault).Grows := by
  intro w
  simpa [refuse] using Writer.GrowsTo.refl w

theorem grows_bytes (data : List UInt8) : (bytes memory data).Grows := by
  intro w
  rw [runFrom_bytes]
  split
  · exact w.growsTo_append data
  · exact Writer.GrowsTo.refl w

theorem grows_align (alignment : Nat) : (align memory alignment).Grows := by
  intro w
  rw [runFrom_align]
  split
  · exact Writer.GrowsTo.refl w
  · exact grows_bytes _ w

theorem grows_word (word : UInt32) : (Write.word memory word).Grows :=
  grows_bind (grows_align _) fun _ => grows_bytes _

theorem grows_count (n : Nat) : (count memory n).Grows := by
  rw [count]
  split
  · exact grows_word _
  · exact grows_refuse _

theorem grows_text (s : String) : (text memory s).Grows := by
  rw [text]
  split
  · exact grows_refuse _
  · exact grows_bind (grows_count _) fun _ => grows_bind (grows_bytes _) fun _ => grows_bytes _

end Write

theorem WriteStep.grows_perform (step : WriteStep) : (step.perform memory).Grows := by
  cases step with
  | align alignment => exact Write.grows_align alignment
  | bytes data => exact Write.grows_bytes data
  | word value => exact Write.grows_word value
  | count n => exact Write.grows_count n
  | text s => exact Write.grows_text s

/-- A script only appends, whichever of its steps fail. -/
theorem Writer.growsTo_after (memory : Memory) (steps : List WriteStep) (w : Writer) :
    w.GrowsTo (after (WriteStep.perform memory) steps w) := by
  induction steps generalizing w with
  | nil => exact GrowsTo.refl w
  | cons step steps ih => exact (step.grows_perform w).trans (ih _)

end DiscoveryGraph.Cdr
