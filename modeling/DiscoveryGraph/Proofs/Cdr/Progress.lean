import DiscoveryGraph.Proofs.Cdr.Reading

/-!
# How far readers get

Reading goes forward only: bytes that were passed are not read again, and those ahead are
the rest of the same body.  An action that fails names an offset between the place where it
began and the place where it stopped.  Running out of memory is another matter; an action
for which there is always room fails with a fault or not at all.
-/

namespace DiscoveryGraph.Cdr

variable {value : Type}

/-! ## Going forward -/

namespace Reader

/-- Passing some bytes of the body leads from `r` to `next`. -/
def Reaches (r next : Reader) : Prop :=
  ∃ passed, r.unread = passed ++ next.unread ∧ next.offset = r.offset + passed.length

variable {r mid next : Reader}

theorem Reaches.refl (r : Reader) : r.Reaches r := ⟨[], rfl, rfl⟩

theorem Reaches.trans (h₁ : r.Reaches mid) (h₂ : mid.Reaches next) : r.Reaches next := by
  obtain ⟨front, hunread, hoffset⟩ := h₁
  obtain ⟨rest, hunread', hoffset'⟩ := h₂
  refine ⟨front ++ rest, ?_, ?_⟩
  · rw [hunread, hunread', List.append_assoc]
  · rw [hoffset', hoffset, List.length_append, Nat.add_assoc]

theorem Reaches.offset_add_remaining (h : r.Reaches next) :
    next.offset + next.remaining = r.offset + r.remaining := by
  obtain ⟨passed, hunread, hoffset⟩ := h
  rw [hoffset, remaining, remaining, hunread, List.length_append, Nat.add_assoc]

theorem Reaches.offset_le (h : r.Reaches next) : r.offset ≤ next.offset := by
  obtain ⟨passed, -, hoffset⟩ := h
  omega

theorem Reaches.remaining_le (h : r.Reaches next) : next.remaining ≤ r.remaining := by
  have hsum := h.offset_add_remaining
  have hoffset := h.offset_le
  omega

theorem reaches_advance {count : Nat} (h : count ≤ r.remaining) : r.Reaches (r.advance count) := by
  refine ⟨r.unread.take count, (List.take_append_drop count r.unread).symm, ?_⟩
  rw [remaining] at h
  rw [advance, List.length_take, Nat.min_eq_left h]

/-- The place in a body behind its first `offset` bytes. -/
def inBody (body : List UInt8) (offset : Nat) : Reader := ⟨offset, body.drop offset⟩

theorem ofBody_eq_inBody (body : List UInt8) : ofBody body = inBody body 0 := rfl

@[simp]
theorem offset_inBody (body : List UInt8) (offset : Nat) : (inBody body offset).offset = offset :=
  rfl

theorem remaining_inBody (body : List UInt8) (offset : Nat) :
    (inBody body offset).remaining = body.length - offset :=
  List.length_drop

theorem advance_inBody (body : List UInt8) (offset count : Nat) :
    (inBody body offset).advance count = inBody body (offset + count) := by
  rw [inBody, advance, inBody, List.drop_drop]

/-- What an action may come to that begins at `r`: it gets ahead, and where it fails it
reports a fault from `start` on and not behind the place where it stopped. -/
def MayComeTo (start : Nat) (r : Reader) : Except Error value × Reader → Prop
  | (.ok _, next) => r.Reaches next
  | (.error e, next) =>
      r.Reaches next ∧
        ∃ offset fault, e = .serialization offset fault ∧ start ≤ offset ∧ offset ≤ next.offset

/-- What an action comes to from a place ahead, it comes to from here. -/
theorem Reaches.mayComeTo {start : Nat} {outcome : Except Error value × Reader}
    (hmid : r.Reaches mid) (h : mid.MayComeTo start outcome) : r.MayComeTo start outcome := by
  rcases outcome with ⟨_ | x, next⟩
  · exact ⟨hmid.trans h.1, h.2⟩
  · exact hmid.trans h

theorem MayComeTo.reaches {start : Nat} {outcome : Except Error value × Reader}
    (h : r.MayComeTo start outcome) : r.Reaches outcome.2 := by
  rcases outcome with ⟨_ | x, next⟩
  · exact h.1
  · exact h

theorem MayComeTo.exists_fault {start : Nat} {outcome : Except Error value × Reader}
    (h : r.MayComeTo start outcome) {e : Error} (he : outcome.1 = .error e) :
    ∃ offset fault, e = .serialization offset fault ∧ start ≤ offset ∧
      offset ≤ outcome.2.offset := by
  rcases outcome with ⟨_ | x, next⟩
  · cases he
    exact h.2
  · contradiction

theorem MayComeTo.mono {start earlier : Nat} {outcome : Except Error value × Reader}
    (h : r.MayComeTo start outcome) (hearlier : earlier ≤ start) :
    r.MayComeTo earlier outcome := by
  rcases outcome with ⟨_ | x, next⟩
  · obtain ⟨hreaches, offset, fault, he, hoffset, hnext⟩ := h
    exact ⟨hreaches, offset, fault, he, Nat.le_trans hearlier hoffset, hnext⟩
  · exact h

end Reader

namespace Read

/-- From every place at or behind `start` the action goes forward, and it fails only with
faults between `start` and where it stops. -/
def Forward (start : Nat) (read : Read value) : Prop :=
  ∀ r : Reader, start ≤ r.offset → r.MayComeTo start (read.runFrom r)

variable {start : Nat}

theorem Forward.bind {other : Type} {first : Read value} {second : value → Read other}
    (hfirst : Forward start first) (hsecond : ∀ x, Forward start (second x)) :
    Forward start (first >>= second) := by
  intro r hr
  have h₁ := hfirst r hr
  rw [Action.runFrom_bind]
  rcases hrun : first.runFrom r with ⟨e | x, mid⟩
  · rwa [hrun] at h₁
  · rw [hrun] at h₁
    have hmid : r.Reaches mid := h₁
    have h₂ := hsecond x mid (Nat.le_trans hr hmid.offset_le)
    exact hmid.mayComeTo h₂

theorem forward_pure (x : value) : Forward start (pure x : Read value) :=
  fun r _ => Reader.Reaches.refl r

theorem forward_get : Forward start (get : Read Reader) :=
  fun r _ => Reader.Reaches.refl r

/-- A fault may be reported where the action began. -/
theorem forward_refuse (fault : Fault) : Forward start (refuse start fault : Read value) :=
  fun r hr => ⟨Reader.Reaches.refl r, start, fault, rfl, Nat.le_refl start, hr⟩

/-- An action that keeps the place where it began may report it later. -/
theorem forward_of_place {body : Reader → Read value}
    (h : ∀ place, Forward place.offset (body place)) : Forward start (get >>= body) := by
  intro r hr
  rw [Action.runFrom_bind, Action.runFrom_get]
  exact (h r r (Nat.le_refl _)).mono hr

theorem Forward.ite {p : Prop} [Decidable p] {yes no : Read value} (hyes : Forward start yes)
    (hno : Forward start no) : Forward start (if p then yes else no) := by
  split
  · exact hyes
  · exact hno

end Read

/-! ## Fields -/

namespace Read

variable {start : Nat} {policy : LengthPolicy}

theorem forward_align (alignment : Nat) : Forward start (align alignment) := by
  intro r hr
  rw [runFrom_align]
  split_ifs with halignment hroom
  · exact Reader.Reaches.refl r
  · exact Reader.reaches_advance hroom
  · exact ⟨Reader.Reaches.refl r, _, _, rfl, hr, Nat.le_refl _⟩

theorem forward_bytes (count : Nat) : Forward start (bytes count) := by
  intro r hr
  rw [runFrom_bytes]
  split_ifs with hroom
  · exact Reader.reaches_advance hroom
  · exact ⟨Reader.Reaches.refl r, _, _, rfl, hr, Nat.le_refl _⟩

theorem forward_unalignedWord : Forward start unalignedWord :=
  (forward_bytes Word.size).bind fun _ => forward_pure _

theorem forward_word : Forward start word :=
  (forward_align Word.size).bind fun _ => forward_unalignedWord

theorem forward_count (size : Nat) : Forward start (count policy size) :=
  forward_of_place fun _ => forward_word.bind fun _ => forward_get.bind fun _ =>
    (forward_pure _).ite (forward_refuse _)

theorem forward_text : Forward start (text policy) := by
  refine forward_of_place fun place => (forward_count 1).bind fun length => ?_
  refine (forward_refuse _).ite ((forward_bytes length).bind fun raw => ?_)
  refine Forward.ite ?_ (forward_refuse _)
  cases Utf8.decode? raw.dropLast with
  | none => exact forward_refuse _
  | some s => exact forward_pure s

theorem forward_reserve {element : Element}
    (hgrants : ∀ count unread, policy.grants element count unread = true) (count : Nat) :
    Forward start (reserve policy element count) := by
  refine forward_get.bind fun r => ?_
  rw [if_pos (hgrants count r.remaining)]
  exact forward_pure ()

theorem forward_times {read : Read value} (hread : Forward start read) (count : Nat) :
    Forward start (times read count) := by
  induction count with
  | zero => exact forward_pure []
  | succ count ih => exact hread.bind fun _ => ih.bind fun _ => forward_pure _

theorem forward_sequence {element : Element} {read : Read value}
    (hgrants : ∀ count unread, policy.grants element count unread = true)
    (hread : Forward start read) (size : Nat) :
    Forward start (sequence policy element size read) :=
  (forward_count size).bind fun count =>
    (forward_reserve hgrants count).bind fun _ => forward_times hread count

end Read

/-! ## Scripts -/

theorem ReadStep.forward_perform {start : Nat} (step : ReadStep) :
    Read.Forward start step.perform := by
  cases step with
  | align alignment => exact (Read.forward_align alignment).bind fun _ => Read.forward_pure _
  | bytes n => exact (Read.forward_bytes n).bind fun _ => Read.forward_pure _
  | word => exact Read.forward_word.bind fun _ => Read.forward_pure _
  | unalignedWord => exact Read.forward_unalignedWord.bind fun _ => Read.forward_pure _
  | count size => exact (Read.forward_count size).bind fun _ => Read.forward_pure _
  | text => exact Read.forward_text.bind fun _ => Read.forward_pure _

/-- A script goes forward, also behind the steps that fail. -/
theorem Reader.reaches_after (steps : List ReadStep) (r : Reader) :
    r.Reaches (after ReadStep.perform steps r) := by
  induction steps generalizing r with
  | nil => exact Reaches.refl r
  | cons step steps ih => exact (step.forward_perform r (Nat.le_refl _)).reaches.trans (ih _)

end DiscoveryGraph.Cdr
