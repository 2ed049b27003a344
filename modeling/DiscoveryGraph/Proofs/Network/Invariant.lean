import DiscoveryGraph.Proofs.Network.Party

/-!
# What holds of a network at all times

Every party follows its log, and so do the messages on the bus.  The marks from
one party to another, in the order received, travelling and outgoing, are what
the first has published.  This holds at the start, every step preserves it, and
so it holds after every run.
-/

namespace DiscoveryGraph

variable {ι : Type}

/-! ## The order of marks -/

theorem toList_head?_append_tail {α : Type} (xs : List α) : xs.head?.toList ++ xs.tail = xs := by
  cases xs <;> rfl

namespace Log

theorem received_listen (p : Party) (l : Log ι) : (l.listen p).received = l.received := by
  unfold listen
  cases p.context.upcoming?.isSome with
  | false => rfl
  | true =>
      simp only [received, if_true, List.append_assoc]
      rw [toList_head?_append_tail]

theorem published_listen (p : Party) (l : Log ι) : (l.listen p).published = l.published := by
  unfold listen
  cases p.context.upcoming?.isSome <;> rfl

theorem outgoing_listen (p : Party) (l : Log ι) : (l.listen p).outgoing = l.outgoing := by
  unfold listen
  cases p.context.upcoming?.isSome <;> rfl

theorem exists_publish_eq (i : ι) (p : Party) (l : Log ι) :
    ∃ sent, (l.publish i p).published = l.published ++ sent ∧
      (l.publish i p).outgoing = l.outgoing ++ sent :=
  ⟨_, rfl, rfl⟩

end Log

namespace Chronicle

variable [DecidableEq ι] {c : Chronicle ι}

/-- From one party to another no mark is lost and none overtakes another. -/
def Ordered (c : Chronicle ι) : Prop :=
  ∀ i j, (c.logs j).received.filter (·.sender = i) ++ c.travelling i j ++
    (c.logs i).outgoing = (c.logs i).published

namespace Ordered

theorem publish (h : c.Ordered) (i : ι) (p : Party) :
    (c.withLog i ((c.logs i).publish i p)).Ordered := by
  intro a b
  have hreceived : ((c.logs i).publish i p).received = (c.logs i).received := rfl
  rw [apply_logs_withLog Log.received hreceived, logs_withLog]
  by_cases ha : a = i
  · obtain ⟨sent, hpublished, houtgoing⟩ := (c.logs i).exists_publish_eq i p
    rw [if_pos ha, hpublished, houtgoing, ← List.append_assoc, ← ha]
    exact congrArg (· ++ sent) (h a b)
  · rw [if_neg ha]
    exact h a b

theorem listen (h : c.Ordered) (j : ι) (p : Party) :
    (c.withLog j ((c.logs j).listen p)).Ordered := by
  intro a b
  rw [apply_logs_withLog Log.received (Log.received_listen p _),
    apply_logs_withLog Log.outgoing (Log.outgoing_listen p _),
    apply_logs_withLog Log.published (Log.published_listen p _)]
  exact h a b

theorem collect (h : c.Ordered) (i : ι) :
    Ordered
      { c.withLog i { c.logs i with outgoing := (c.logs i).outgoing.tail } with
        travelling := Function.update c.travelling i fun j =>
          c.travelling i j ++ (c.logs i).outgoing.head?.toList } := by
  intro a b
  have hreceived : Log.received { c.logs i with outgoing := (c.logs i).outgoing.tail } =
      (c.logs i).received :=
    rfl
  dsimp only
  rw [apply_logs_withLog Log.received hreceived, logs_withLog, Function.update_apply]
  by_cases ha : a = i
  · have houtgoing := toList_head?_append_tail (c.logs i).outgoing
    rw [if_pos ha, if_pos ha, ← List.append_assoc, List.append_assoc, houtgoing, ← ha]
    exact h a b
  · rw [if_neg ha, if_neg ha]
    exact h a b

theorem mem_published_of_mem_travelling (h : c.Ordered) {i j : ι} {mark : Mark ι}
    (hmark : mark ∈ c.travelling i j) : mark ∈ (c.logs i).published := by
  rw [← h i j]
  simp [hmark]

theorem deliver (h : c.Ordered) {i j : ι} {mark : Mark ι} {tail : List (Mark ι)}
    (htravelling : c.travelling i j = mark :: tail) (hsender : mark.sender = i) :
    Ordered
      { c.withLog j ((c.logs j).arrive (some mark)) with
        travelling := setAt c.travelling i j tail } := by
  intro a b
  have houtgoing : ((c.logs j).arrive (some mark)).outgoing = (c.logs j).outgoing := rfl
  have hpublished : ((c.logs j).arrive (some mark)).published = (c.logs j).published := rfl
  have hreceived : ((c.logs j).arrive (some mark)).received = (c.logs j).received ++ [mark] :=
    (List.append_assoc _ _ _).symm
  dsimp only
  rw [apply_logs_withLog Log.outgoing houtgoing, apply_logs_withLog Log.published hpublished,
    logs_withLog, setAt_apply, ← h a b]
  by_cases hb : b = j
  · rw [if_pos hb, hreceived, List.filter_append, hb]
    by_cases ha : a = i
    · rw [if_pos ⟨ha, rfl⟩, ha, htravelling]
      simp [hsender]
    · have hother : ¬ mark.sender = a := by
        rw [hsender]
        exact Ne.symm ha
      rw [if_neg fun hab => ha hab.1]
      simp [hother]
  · rw [if_neg hb, if_neg fun hab => hb hab.2]

end Ordered

end Chronicle

/-! ## The whole network -/

namespace Observed

variable [DecidableEq ι] {gid : ι → Gid} {memory : ι → Cdr.Memory} {o : Observed ι}

/-- The invariant of an observed network. -/
structure Sound (gid : ι → Gid) (memory : ι → Cdr.Memory) (o : Observed ι) : Prop where
  party : ∀ i, (o.net.parties i).Follows gid (memory i) i (o.chronicle.logs i)
  links : ∀ i j, Carry gid (o.net.links i j) (o.chronicle.travelling i j)
  order : o.chronicle.Ordered

namespace Sound

theorem start (hgid : Function.Injective gid) (enclave : ι → String) :
    (Observed.start gid enclave memory).Sound gid memory where
  party i := .start hgid i (enclave i) (memory i)
  links _ _ := .nil
  order _ _ := rfl

/-- A step that concerns one party and its log leaves the others as they are. -/
theorem follows_update (h : o.Sound gid memory) {i : ι} {p : Party} {l : Log ι}
    (hi : p.Follows gid (memory i) i l) (k : ι) :
    ((o.net.withParty i p).parties k).Follows gid (memory k) k
      ((o.chronicle.withLog i l).logs k) := by
  rw [Network.parties_withParty, Chronicle.logs_withLog]
  by_cases hk : k = i
  · rw [if_pos hk, if_pos hk, hk]
    exact hi
  · rw [if_neg hk, if_neg hk]
    exact h.party k

theorem prepare (hgid : Function.Injective gid) (h : o.Sound gid memory) (i : ι) (c : Call) :
    (o.step (.prepare i c)).Sound gid memory where
  party k := by
    have hparty := h.follows_update ((h.party i).prepare hgid c) k
    rw [Chronicle.withLog, Function.update_eq_self] at hparty
    exact hparty
  links := h.links
  order := h.order

theorem publish (h : o.Sound gid memory) (i : ι) :
    (o.step (.publish i)).Sound gid memory where
  party := h.follows_update (h.party i).publish
  links := h.links
  order := h.order.publish i (o.net.parties i)

theorem listen (hgid : Function.Injective gid) (h : o.Sound gid memory) (j : ι) :
    (o.step (.listen j)).Sound gid memory where
  party := h.follows_update ((h.party j).listen hgid)
  links := h.links
  order := h.order.listen j (o.net.parties j)

theorem collect (h : o.Sound gid memory) (i : ι) :
    (o.step (.collect i)).Sound gid memory := by
  have hcarry := (h.party i).outgoing
  have horder := h.order.collect i
  cases hsamples : (o.net.parties i).context.outbox.samples with
  | nil =>
      have hsame : o.step (.collect i) = o := by
        simp only [step, Network.step, Chronicle.record, hsamples]
      rw [hsame]
      exact h
  | cons sample rest =>
      rw [hsamples] at hcarry
      obtain ⟨mark, tail, houtgoing, hdecode, hrest⟩ := hcarry.exists_eq_cons
      rw [houtgoing] at horder
      simp only [step, Network.step, Chronicle.record, hsamples, houtgoing]
      refine ⟨h.follows_update ((h.party i).withSamples hrest), fun a b => ?_, horder⟩
      simp only [Function.update_apply]
      by_cases ha : a = i
      · rw [if_pos ha, if_pos ha]
        exact (h.links i b).append_one hdecode
      · rw [if_neg ha, if_neg ha]
        exact h.links a b

theorem deliver (h : o.Sound gid memory) (i j : ι) :
    (o.step (.deliver i j)).Sound gid memory := by
  have hcarry := h.links i j
  cases hlink : o.net.links i j with
  | nil =>
      have hsame : o.step (.deliver i j) = o := by
        simp only [step, Network.step, Chronicle.record, hlink]
      rw [hsame]
      exact h
  | cons sample rest =>
      rw [hlink] at hcarry
      obtain ⟨mark, tail, htravelling, hdecode, hrest⟩ := hcarry.exists_eq_cons
      have hmark : mark ∈ o.chronicle.travelling i j := by
        rw [htravelling]
        exact List.mem_cons_self
      have hsender : mark.sender = i :=
        (h.party i).sender mark (h.order.mem_published_of_mem_travelling hmark)
      simp only [step, Network.step, Chronicle.record, hlink, htravelling]
      refine ⟨h.follows_update ((h.party j).send hdecode), fun a b => ?_,
        h.order.deliver htravelling hsender⟩
      simp only [setAt_apply]
      by_cases hab : a = i ∧ b = j
      · rw [if_pos hab, if_pos hab]
        exact hrest
      · rw [if_neg hab, if_neg hab]
        exact h.links a b

theorem step (hgid : Function.Injective gid) (h : o.Sound gid memory) (s : Network.Step ι) :
    (o.step s).Sound gid memory := by
  cases s with
  | prepare i c => exact h.prepare hgid i c
  | publish i => exact h.publish i
  | collect i => exact h.collect i
  | deliver i j => exact h.deliver i j
  | listen j => exact h.listen hgid j

theorem run (hgid : Function.Injective gid) (h : o.Sound gid memory)
    (steps : List (Network.Step ι)) : (o.run steps).Sound gid memory := by
  induction steps generalizing o with
  | nil => exact h
  | cons s steps ih => exact ih (h.step hgid s)

end Sound

end Observed

end DiscoveryGraph
