import DiscoveryGraph.Proofs.Context.Mailroom

/-!
# The life of a listener

An inbox that was refused, or whose listener has ended or was stopped, is done with:
nothing of it is handled any more.  A listener that is left alone handles its inbox and
then waits, or ends if the inbox is closed.
-/

namespace DiscoveryGraph

/-- Whether nothing can become of the inbox any more. -/
def Fate.isFinal : Fate → Bool
  | .unclaimed => false
  | .attached => false
  | _ => true

theorem Fate.isFinal_iff {fate : Fate} :
    fate.isFinal = true ↔ fate ≠ .unclaimed ∧ fate ≠ .attached := by
  cases fate <;> simp [isFinal]

namespace Mailroom

variable {state : Type} {w : Mailroom state} {origin : Context state} {k : Nat}

/-! ## Inboxes that are done with -/

theorem mailboxes_start_of_ne {j : Nat} (h : k ≠ j) :
    (w.start j).mailboxes k = w.mailboxes k := by
  unfold start
  obtain ⟨⟨e⟩ | ⟨⟩, context⟩ := w.context.startListenerOn (w.mailboxes j).inbox
  · exact Function.update_of_ne h _ _
  · exact Function.update_of_ne h _ _

theorem handled_start (w : Mailroom state) (j k : Nat) :
    (w.start j).handled k = w.handled k := by
  unfold start
  obtain ⟨⟨e⟩ | ⟨⟩, context⟩ := w.context.startListenerOn (w.mailboxes j).inbox
  · rfl
  · rfl

theorem fate_update {mailboxes : Nat → Mailbox} {j : Nat} {m : Mailbox}
    (h : m.fate = (mailboxes j).fate) :
    (Function.update mailboxes j m k).fate = (mailboxes k).fate := by
  by_cases hk : k = j
  · rw [hk, Function.update_self, h]
  · rw [Function.update_of_ne hk]

/-- Starting listeners, sending and closing do nothing to an inbox that was given away,
but that messages can be sent to it and that it can be closed. -/
theorem step_of_fate_ne_unclaimed (hfate : (w.mailboxes k).fate ≠ .unclaimed) (s : Step) :
    (((w.step s).mailboxes k).fate = (w.mailboxes k).fate ∧
        (w.step s).handled k = w.handled k) ∨
      s = .listen ∨ s = .shutdown := by
  cases s with
  | start j =>
      refine .inl ?_
      rw [step]
      by_cases hstart : (w.mailboxes j).fate = .unclaimed
      · have hk : k ≠ j := by
          rintro rfl
          exact hfate hstart
        rw [if_pos hstart, mailboxes_start_of_ne hk, handled_start]
        exact ⟨rfl, rfl⟩
      · rw [if_neg hstart]
        exact ⟨rfl, rfl⟩
  | send j sample =>
      refine .inl ?_
      by_cases haccepts : (w.mailboxes j).accepts = true
      · have hstep : w.step (.send j sample) = _ := if_pos haccepts
        rw [hstep]
        exact ⟨fate_update rfl, rfl⟩
      · have hstep : w.step (.send j sample) = w := if_neg haccepts
        rw [hstep]
        exact ⟨rfl, rfl⟩
  | close j => exact .inl ⟨fate_update rfl, rfl⟩
  | listen => exact .inr (.inl rfl)
  | shutdown => exact .inr (.inr rfl)

/-- What is done to a listener leaves alone an inbox on which none is running. -/
theorem record_of_listener?_eq_none {sample? : Option Sample} (h : w.listener? k = none)
    (hidle : w.context.listener? = none → sample? = none) (next : Context state) (fate : Fate) :
    (w.record next sample? fate).mailboxes k = w.mailboxes k ∧
      (w.record next sample? fate).handled k = w.handled k := by
  rw [handled_record]
  cases hlistener : w.context.listener? with
  | none =>
      rw [mailboxes_record_of_listener?_eq_none hlistener, hidle hlistener]
      exact ⟨rfl, by simp⟩
  | some l =>
      have hk : k ≠ w.current := by
        rintro rfl
        rw [listener?_current, hlistener] at h
        contradiction
      rw [mailboxes_record_of_listener? hlistener, Function.update_of_ne hk, if_neg hk]
      exact ⟨rfl, List.append_nil _⟩

namespace Orderly

theorem listener?_of_isFinal (h : Orderly origin w)
    (hfinal : (w.mailboxes k).fate.isFinal = true) : w.listener? k = none := by
  have hended := (Fate.isFinal_iff.mp hfinal).2
  rw [ne_eq, (h.fits k).attached_iff, Option.not_isSome_iff_eq_none] at hended
  exact hended

/-- No step does anything more to an inbox that is done with. -/
theorem step_of_isFinal (h : Orderly origin w) (hfinal : (w.mailboxes k).fate.isFinal = true)
    (s : Step) :
    ((w.step s).mailboxes k).fate = (w.mailboxes k).fate ∧
      (w.step s).handled k = w.handled k := by
  have hnone := h.listener?_of_isFinal hfinal
  obtain hkept | rfl | rfl := step_of_fate_ne_unclaimed (Fate.isFinal_iff.mp hfinal).1 s
  · exact hkept
  · obtain ⟨hmailbox, hhandled⟩ :=
      record_of_listener?_eq_none hnone Context.upcoming?_of_listener?_eq_none
        w.context.listen .exhausted
    exact ⟨congrArg Mailbox.fate hmailbox, hhandled⟩
  · obtain ⟨hmailbox, hhandled⟩ :=
      record_of_listener?_eq_none hnone Context.final?_of_listener?_eq_none
        w.context.shutdown .abandoned
    exact ⟨congrArg Mailbox.fate hmailbox, hhandled⟩

theorem run_of_isFinal (h : Orderly origin w) (hfinal : (w.mailboxes k).fate.isFinal = true)
    (steps : List Step) :
    ((w.run steps).mailboxes k).fate = (w.mailboxes k).fate ∧
      (w.run steps).handled k = w.handled k := by
  induction steps generalizing w with
  | nil => exact ⟨rfl, rfl⟩
  | cons s steps ih =>
      obtain ⟨hfate, hhandled⟩ := h.step_of_isFinal hfinal s
      obtain ⟨hlastFate, hlastHandled⟩ := ih (h.step s) (by rw [hfate]; exact hfinal)
      exact ⟨hlastFate.trans hfate, hlastHandled.trans hhandled⟩

end Orderly

/-! ## Listeners that are left alone -/

/-- The listener on the inbox has ended by itself, or has nothing to do. -/
def Settled (w : Mailroom state) (k : Nat) : Prop :=
  (w.mailboxes k).fate = .exhausted ∨ ∃ l, w.listener? k = some l ∧ l.inbox = .empty

theorem listener?_listen (w : Mailroom state) (k : Nat) :
    (w.step .listen).listener? k = (w.listener? k).bind (·.step.2) := by
  rw [step, listener?_record, Context.listener?_listen, listener?]
  by_cases hk : k = w.current
  · rw [if_pos hk, if_pos hk]
  · rw [if_neg hk, if_neg hk]
    rfl

theorem fate_listen {l : Listener} (hl : w.listener? k = some l) :
    ((w.step .listen).mailboxes k).fate =
      if l.step.2.isSome then (w.mailboxes k).fate else .exhausted := by
  obtain ⟨rfl, hlistener⟩ := listener?_eq_some_iff.mp hl
  rw [step, mailboxes_record_of_listener? hlistener, Function.update_self,
    Context.listener?_listen, hlistener, Option.bind_some, Mailbox.leave]
  cases l.step.2 <;> rfl

/-- What is done to a listener has no influence on what was sent. -/
theorem inbox_record (next : Context state) (sample? : Option Sample) (fate : Fate) (k : Nat) :
    ((w.record next sample? fate).mailboxes k).inbox = (w.mailboxes k).inbox := by
  cases hlistener : w.context.listener? with
  | none => rw [mailboxes_record_of_listener?_eq_none hlistener]
  | some l =>
      rw [mailboxes_record_of_listener? hlistener]
      by_cases hk : k = w.current
      · rw [hk, Function.update_self, Mailbox.leave]
        cases next.listener? <;> rfl
      · rw [Function.update_of_ne hk]

theorem inbox_listens (w : Mailroom state) (n k : Nat) :
    ((w.run (List.replicate n .listen)).mailboxes k).inbox = (w.mailboxes k).inbox := by
  induction n generalizing w with
  | zero => rfl
  | succ n ih => exact (ih _).trans (inbox_record _ _ _ k)

namespace Orderly

theorem settled_listen (h : Orderly origin w) (hsettled : w.Settled k) :
    (w.step .listen).Settled k := by
  obtain hfate | ⟨l, hl, hempty⟩ := hsettled
  · obtain ⟨hkept, -⟩ := h.step_of_isFinal (by rw [hfate]; rfl) .listen
    exact .inl (hkept.trans hfate)
  · obtain ⟨-, hinbox⟩ | ⟨sample?, next, hstep, hclosed, hqueue, -⟩ := l.step_cases
    · rw [hempty] at hinbox
      contradiction
    · refine .inr ⟨next, by rw [listener?_listen, hl, Option.bind_some, hstep], ?_⟩
      rw [hempty] at hclosed hqueue
      have hrest : next.inbox.queue = [] := (List.append_eq_nil_iff.mp hqueue.symm).2
      calc next.inbox = ⟨next.inbox.queue, next.inbox.closed⟩ := rfl
        _ = .empty := by rw [hrest, hclosed]; rfl

theorem settled_listens (h : Orderly origin w) (hsettled : w.Settled k) (n : Nat) :
    (w.run (List.replicate n .listen)).Settled k := by
  induction n generalizing w with
  | zero => exact hsettled
  | succ n ih => exact ih (h.step .listen) (h.settled_listen hsettled)

/-- A listener that is left alone has its inbox handled in the end. -/
theorem settles (h : Orderly origin w) {l : Listener} (hl : w.listener? k = some l) {n : Nat}
    (hn : l.remaining ≤ n) : (w.run (List.replicate n .listen)).Settled k := by
  induction n generalizing w l with
  | zero =>
      have hpositive := l.remaining_pos
      omega
  | succ n ih =>
      obtain ⟨hstep, -⟩ | ⟨sample?, next, hstep, -, -, hempty | hlt⟩ := l.step_cases
      · have hended : (w.step .listen).Settled k :=
          .inl (by rw [fate_listen hl, hstep]; rfl)
        exact (h.step .listen).settled_listens hended n
      · exact h.settled_listens (.inr ⟨l, hl, hempty⟩) (n + 1)
      · have hnext : (w.step .listen).listener? k = some next := by
          rw [listener?_listen, hl, Option.bind_some, hstep]
        exact ih (h.step .listen) hnext (by omega)

theorem handled_of_settled (h : Orderly origin w) (hsettled : w.Settled k) :
    w.handled k = (w.mailboxes k).sent ∧
      ((w.mailboxes k).fate = .exhausted ↔ (w.mailboxes k).closed = true) := by
  have hfits := h.fits k
  obtain hfate | ⟨l, hl, hempty⟩ := hsettled
  · obtain ⟨hclosed, hhandled⟩ := hfits.of_exhausted hfate
    exact ⟨hhandled, iff_of_true hfate hclosed⟩
  · rw [hl] at hfits
    obtain ⟨hclosed, hhandled, hfate⟩ := hfits.of_empty hempty
    exact ⟨hhandled, by simp [hclosed, hfate]⟩

end Orderly

/-! ## The whole life -/

theorem step_shutdown_step_shutdown (w : Mailroom state) :
    (w.step .shutdown).step .shutdown = w.step .shutdown := by
  have hcontext : (w.step .shutdown).context = w.context.shutdown := rfl
  have hnone := w.context.listener?_shutdown
  rw [step, hcontext, Context.shutdown_shutdown, Context.final?_of_listener?_eq_none hnone,
    record, hcontext, Context.isListening_eq, hnone]
  simp [← hcontext]

namespace Orderly

/-- Unless it is stopped, a listener ends only when it has handled its inbox. -/
theorem step_of_attached (h : Orderly origin w) (hattached : (w.mailboxes k).fate = .attached)
    {s : Step} (hs : s ≠ .shutdown) (hended : ((w.step s).mailboxes k).fate ≠ .attached) :
    ((w.step s).mailboxes k).closed = true ∧
      (w.step s).handled k = ((w.step s).mailboxes k).sent := by
  have hclaimed : (w.mailboxes k).fate ≠ .unclaimed := by
    rw [hattached]
    nofun
  obtain ⟨hkept, -⟩ | rfl | rfl := step_of_fate_ne_unclaimed hclaimed s
  · exact absurd (hkept.trans hattached) hended
  · obtain ⟨l, hl⟩ := Option.isSome_iff_exists.mp ((h.fits k).attached_iff.mp hattached)
    have hfate := fate_listen hl
    by_cases hnext : l.step.2.isSome = true
    · rw [if_pos hnext] at hfate
      exact absurd (hfate.trans hattached) hended
    · rw [if_neg hnext] at hfate
      exact ((h.step .listen).fits k).of_exhausted hfate
  · contradiction

theorem listens_of_attached (h : Orderly origin w)
    (hattached : (w.mailboxes k).fate = .attached) {n : Nat}
    (hn : w.context.stepsToSettle ≤ n) :
    let later := w.run (List.replicate n .listen)
    later.handled k = (w.mailboxes k).sent ∧
      ((later.mailboxes k).fate = .exhausted ↔ (w.mailboxes k).closed = true) := by
  obtain ⟨l, hl⟩ := Option.isSome_iff_exists.mp ((h.fits k).attached_iff.mp hattached)
  have hremaining := Context.remaining_le_stepsToSettle (listener?_eq_some_iff.mp hl).2
  have hsettled := h.settles hl (Nat.le_trans hremaining hn)
  have hinbox := w.inbox_listens n k
  rw [Mailbox.inbox, Mailbox.inbox, Inbox.mk.injEq] at hinbox
  rw [← hinbox.1, ← hinbox.2]
  exact (h.run _).handled_of_settled hsettled

end Orderly

/-- In every run of a context with its inboxes, each of which is given to it once at most:

- at most one inbox has a listener, and the context is listening exactly if one has;
- a listener is started exactly if there is none, and otherwise the request is refused
  and changes nothing but that the inbox is lost;
- what has been handled of an inbox is always a beginning of what was sent to it, and has
  all been applied to the graph, in this order and with nothing between;
- unless it is stopped, a listener ends only if its inbox is closed and handled to the
  last message, and if it is left alone it gets so far;
- after a shutdown, which cannot fail, no inbox has a listener, a listener can be started
  on any new inbox, another shutdown changes nothing, and of the inboxes used before
  nothing more is handled in whatever follows. -/
theorem listener_lifecycle (ctx : Context state) (steps : List Step) :
    let w := (opening ctx).run steps
    let down := w.step .shutdown
    ((∀ j k, (w.mailboxes j).fate = .attached → (w.mailboxes k).fate = .attached → j = k) ∧
        (w.context.isListening = true ↔ ∃ k, (w.mailboxes k).fate = .attached)) ∧
      (∀ k, (w.mailboxes k).fate = .unclaimed →
        let answer := (w.context.startListenerOn (w.mailboxes k).inbox).1
        (w.context.isListening = false →
          answer = .ok () ∧ ((w.step (.start k)).mailboxes k).fate = .attached) ∧
        (w.context.isListening = true →
          answer = .error (.invalidArgument .listenerRunning) ∧
            w.step (.start k) =
              { w with
                mailboxes :=
                  Function.update w.mailboxes k { w.mailboxes k with fate := .refused } })) ∧
      ((∀ k, w.handled k <+: (w.mailboxes k).sent) ∧
        w.context.cache = (w.log.map (·.2)).foldl (Cache.learn ctx.gid) ctx.cache) ∧
      (∀ k, (w.mailboxes k).fate = .attached →
        (∀ s, s ≠ .shutdown → ((w.step s).mailboxes k).fate ≠ .attached →
          ((w.step s).mailboxes k).closed = true ∧
            (w.step s).handled k = ((w.step s).mailboxes k).sent) ∧
        ∀ n, w.context.stepsToSettle ≤ n →
          let later := w.run (List.replicate n .listen)
          later.handled k = (w.mailboxes k).sent ∧
            ((later.mailboxes k).fate = .exhausted ↔ (w.mailboxes k).closed = true)) ∧
      (∀ k, (down.mailboxes k).fate ≠ .attached) ∧
      (∀ inbox, (down.context.startListenerOn inbox).1 = .ok ()) ∧
      down.step .shutdown = down ∧
      ∀ k, (down.mailboxes k).fate ≠ .unclaimed →
        ∀ later, (down.run later).handled k = down.handled k := by
  intro w down
  have h : Orderly ctx w := (orderly_opening ctx).run steps
  have hdown : Orderly ctx down := h.step .shutdown
  refine ⟨⟨?_, ?_⟩, ?_, ⟨fun k => (h.fits k).prefix_sent, h.cache⟩, ?_, ?_⟩
  · intro j k hj hk
    exact (h.attached_iff.mp hj).1.trans (h.attached_iff.mp hk).1.symm
  · simp only [h.attached_iff, exists_eq_left]
  · intro k hfate answer
    have hstep : w.step (.start k) = w.start k := if_pos hfate
    rw [hstep, Context.isListening_eq]
    cases hlistener : w.context.listener? with
    | none =>
        have hanswer : answer = .ok () := by
          simp only [answer, Context.startListenerOn_of_listener?_eq_none hlistener]
        rw [start_of_listener?_eq_none hlistener]
        exact ⟨fun _ => ⟨hanswer, by simp⟩, nofun⟩
    | some l =>
        have hanswer : answer = .error (.invalidArgument .listenerRunning) := by
          simp only [answer, Context.startListenerOn_of_listener?_eq_some hlistener]
        exact ⟨nofun, fun _ => ⟨hanswer, start_of_listener?_eq_some hlistener⟩⟩
  · intro k hattached
    exact ⟨fun s hs => h.step_of_attached hattached hs, fun n => h.listens_of_attached hattached⟩
  · have hnone : down.context.listener? = none := w.context.listener?_shutdown
    have hfree : ∀ k, (down.mailboxes k).fate ≠ .attached := by
      intro k
      rw [ne_eq, hdown.attached_iff, Context.isListening_eq, hnone]
      simp
    refine ⟨hfree, ?_, w.step_shutdown_step_shutdown, ?_⟩
    · intro inbox
      rw [Context.startListenerOn_of_listener?_eq_none hnone]
    · intro k hclaimed later
      exact (hdown.run_of_isFinal (Fate.isFinal_iff.mpr ⟨hclaimed, hfree k⟩) later).2

example (ctx : Context state) (sample : Sample) :
    let w := (opening ctx).run
      [.send 0 sample, .start 0, .start 1, .close 0, .listen, .listen, .listen, .listen]
    w.handled 0 = [sample] ∧ (w.mailboxes 0).fate = .exhausted ∧
      (w.mailboxes 1).fate = .refused :=
  ⟨rfl, rfl, rfl⟩

end Mailroom

end DiscoveryGraph
