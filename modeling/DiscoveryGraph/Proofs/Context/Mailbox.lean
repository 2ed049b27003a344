import DiscoveryGraph.Proofs.Context.Listening
import Mathlib.Logic.Function.Basic

/-!
# Inboxes and their listeners

A context is given one inbox after the other.  Messages can be sent to an inbox before a
listener is started on it and while that listener runs.  An inbox is given away once: if
the context has a listener already, the inbox is refused and lost.  A listener ends when
its inbox is closed and empty, or when it is stopped.

What has been handled is recorded beside the context.  For each inbox the record agrees
with what was sent to it, in a way that depends on what has become of it.
-/

namespace DiscoveryGraph

/-! ## Listeners -/

namespace Listener

/-- A bound on the steps of a listener that handles its inbox and then ends. -/
def remaining (l : Listener) : Nat :=
  match l.phase with
  | .beforeReceiving => 2 * l.inbox.queue.length + 2
  | .receiving => 2 * l.inbox.queue.length + 1

theorem remaining_pos (l : Listener) : 0 < l.remaining := by
  unfold remaining
  cases l.phase <;> exact Nat.succ_pos _

/-- A listener ends only on an inbox that is closed and empty.  Otherwise a step handles
the oldest message or none, and brings the end closer if there is anything to do. -/
theorem step_cases (l : Listener) :
    (l.step = (none, none) ∧ l.inbox = ⟨[], true⟩) ∨
      ∃ sample? next, l.step = (sample?, some next) ∧ next.inbox.closed = l.inbox.closed ∧
        l.inbox.queue = sample?.toList ++ next.inbox.queue ∧
        (l.inbox = .empty ∨ next.remaining < l.remaining) := by
  obtain ⟨⟨queue, closed⟩, phase⟩ := l
  cases phase with
  | beforeReceiving => exact .inr ⟨none, _, rfl, rfl, rfl, .inr (Nat.lt_succ_self _)⟩
  | receiving =>
      cases queue with
      | nil =>
          cases closed with
          | true => exact .inl ⟨rfl, rfl⟩
          | false => exact .inr ⟨none, _, rfl, rfl, rfl, .inl rfl⟩
      | cons sample rest =>
          refine .inr ⟨some sample, ⟨⟨rest, closed⟩, .beforeReceiving⟩, ?_, rfl, rfl, .inr ?_⟩
          · simp [step, receive]
          · simp only [remaining, List.length_cons]
            omega

theorem lastSample?_prefix (l : Listener) : l.lastSample?.toList <+: l.inbox.queue := by
  obtain ⟨⟨queue, closed⟩, phase⟩ := l
  cases phase with
  | beforeReceiving => exact List.nil_prefix
  | receiving =>
      cases queue with
      | nil => exact List.nil_prefix
      | cons sample rest => exact ⟨rest, rfl⟩

end Listener

namespace Context

variable {state : Type} {ctx : Context state}

/-- The listener that is running, if there is one. -/
def listener? (ctx : Context state) : Option Listener :=
  match ctx.slot with
  | .running l => some l
  | _ => none

theorem isListening_eq (ctx : Context state) : ctx.isListening = ctx.listener?.isSome := by
  unfold isListening listener?
  cases ctx.slot <;> rfl

theorem upcoming?_eq (ctx : Context state) :
    ctx.upcoming? = ctx.listener?.bind (·.step.1) := by
  unfold upcoming? listener?
  cases ctx.slot <;> rfl

theorem final?_eq (ctx : Context state) : ctx.final? = ctx.listener?.bind (·.lastSample?) := by
  unfold final? listener?
  cases ctx.slot <;> rfl

theorem upcoming?_of_listener?_eq_none (h : ctx.listener? = none) : ctx.upcoming? = none := by
  rw [upcoming?_eq, h]
  rfl

theorem final?_of_listener?_eq_none (h : ctx.listener? = none) : ctx.final? = none := by
  rw [final?_eq, h]
  rfl

theorem remaining_le_stepsToSettle {l : Listener} (h : ctx.listener? = some l) :
    l.remaining ≤ ctx.stepsToSettle := by
  unfold listener? at h
  unfold stepsToSettle Listener.remaining
  cases hslot : ctx.slot with
  | running other =>
      rw [hslot] at h
      obtain rfl := Option.some.inj h
      cases other.phase <;> simp
  | _ => simp [hslot] at h

theorem listener?_listen (ctx : Context state) :
    ctx.listen.listener? = ctx.listener?.bind (·.step.2) := by
  unfold listen listener?
  cases hslot : ctx.slot with
  | running l =>
      rcases hstep : l.step with ⟨sample?, _ | next⟩
      · simp only [hstep, handle?_slot, Option.bind_some]
      · simp only [hstep, handle?_slot, Option.bind_some]
  | _ => simp [hslot]

theorem shutdown_shutdown (ctx : Context state) : ctx.shutdown.shutdown = ctx.shutdown := by
  rw [ctx.shutdown_eq_handle?]
  rfl

theorem listener?_shutdown (ctx : Context state) : ctx.shutdown.listener? = none := by
  rw [shutdown_eq_handle?]
  rfl

theorem listener?_onInbox (ctx : Context state) (f : Inbox → Inbox) :
    (ctx.onInbox f).listener? = ctx.listener?.map fun l => { l with inbox := f l.inbox } := by
  unfold onInbox listener?
  cases hslot : ctx.slot <;> simp [hslot]

theorem startListenerOn_of_listener?_eq_none (h : ctx.listener? = none) (inbox : Inbox) :
    ctx.startListenerOn inbox = (.ok (), { ctx with slot := .running (.start inbox) }) := by
  unfold listener? at h
  unfold startListenerOn
  cases hslot : ctx.slot with
  | running l => simp [hslot] at h
  | _ => rfl

theorem startListenerOn_of_listener?_eq_some {l : Listener} (h : ctx.listener? = some l)
    (inbox : Inbox) :
    ctx.startListenerOn inbox = (.error (.invalidArgument .listenerRunning), ctx) := by
  unfold listener? at h
  unfold startListenerOn
  cases hslot : ctx.slot with
  | running l => rfl
  | _ => simp [hslot] at h

end Context

/-! ## Inboxes -/

/-- What has become of an inbox. -/
inductive Fate
  /-- It has not been given to the context. -/
  | unclaimed
  /-- A listener is running on it. -/
  | attached
  /-- It was given to the context, which had a listener already. -/
  | refused
  /-- Its listener has ended by itself. -/
  | exhausted
  /-- Its listener was stopped. -/
  | abandoned
  deriving DecidableEq

/-- An inbox over its whole life. -/
structure Mailbox where
  /-- The messages that were sent to it, the oldest first. -/
  sent : List Sample
  /-- Whether no more messages can come. -/
  closed : Bool
  fate : Fate
  deriving DecidableEq

namespace Mailbox

/-- What was sent, as an inbox of which nothing has been received. -/
def inbox (m : Mailbox) : Inbox := ⟨m.sent, m.closed⟩

/-- Whether messages can be sent. -/
def accepts (m : Mailbox) : Bool :=
  !m.closed && (m.fate = .unclaimed || m.fate = .attached)

/-- `Fits m handled l?` says that the inbox can be as `m` says when the messages `handled`
of it have been handled and `l?` is the listener running on it, if there is one. -/
inductive Fits : Mailbox → List Sample → Option Listener → Prop
  | unclaimed (sent : List Sample) (closed : Bool) : Fits ⟨sent, closed, .unclaimed⟩ [] none
  | attached (handled : List Sample) (l : Listener) :
      Fits ⟨handled ++ l.inbox.queue, l.inbox.closed, .attached⟩ handled (some l)
  | refused (sent : List Sample) (closed : Bool) : Fits ⟨sent, closed, .refused⟩ [] none
  | exhausted (sent : List Sample) : Fits ⟨sent, true, .exhausted⟩ sent none
  | abandoned (handled rest : List Sample) (closed : Bool) :
      Fits ⟨handled ++ rest, closed, .abandoned⟩ handled none

variable {m : Mailbox} {handled : List Sample} {l : Listener} {l? : Option Listener}

theorem Fits.prefix_sent (h : m.Fits handled l?) : handled <+: m.sent := by
  cases h with
  | unclaimed sent closed => exact List.nil_prefix
  | attached handled l => exact List.prefix_append _ _
  | refused sent closed => exact List.nil_prefix
  | exhausted sent => exact List.prefix_rfl
  | abandoned handled rest closed => exact List.prefix_append _ _

theorem Fits.attached_iff (h : m.Fits handled l?) : m.fate = .attached ↔ l?.isSome = true := by
  cases h <;> simp

theorem Fits.of_exhausted (h : m.Fits handled l?) (hfate : m.fate = .exhausted) :
    m.closed = true ∧ handled = m.sent := by
  cases h with
  | exhausted => exact ⟨rfl, rfl⟩
  | _ => contradiction

theorem Fits.of_empty (h : m.Fits handled (some l)) (hempty : l.inbox = .empty) :
    m.closed = false ∧ handled = m.sent ∧ m.fate = .attached := by
  cases h with
  | attached handled l =>
      rw [hempty]
      exact ⟨rfl, (List.append_nil handled).symm, rfl⟩

theorem Fits.claim (h : m.Fits handled l?) (hfate : m.fate = .unclaimed) :
    Fits { m with fate := .attached } handled (some (.start m.inbox)) := by
  cases h with
  | unclaimed sent closed => exact .attached [] (.start ⟨sent, closed⟩)
  | _ => contradiction

theorem Fits.refuse (h : m.Fits handled l?) (hfate : m.fate = .unclaimed) :
    Fits { m with fate := .refused } handled l? := by
  cases h with
  | unclaimed sent closed => exact .refused sent closed
  | _ => contradiction

/-- What a sender does to the inbox, it does to the inbox of the listener. -/
theorem Fits.send (h : m.Fits handled l?) (haccepts : m.accepts = true) (sample : Sample) :
    Fits { m with sent := m.sent ++ [sample] } handled
      (l?.map fun l => { l with inbox :=
        if l.inbox.closed then l.inbox
        else { l.inbox with queue := l.inbox.queue ++ [sample] } }) := by
  cases h with
  | unclaimed sent closed => exact .unclaimed (sent ++ [sample]) closed
  | attached handled l =>
      have hopen : l.inbox.closed = false := by simpa [accepts] using haccepts
      have hnext := Fits.attached handled
        { l with inbox := ⟨l.inbox.queue ++ [sample], l.inbox.closed⟩ }
      simpa [hopen] using hnext
  | _ => simp [accepts] at haccepts

theorem Fits.close (h : m.Fits handled l?) :
    Fits { m with closed := true } handled
      (l?.map fun l => { l with inbox := { l.inbox with closed := true } }) := by
  cases h with
  | unclaimed sent closed => exact .unclaimed sent true
  | attached handled l => exact .attached handled { l with inbox := ⟨l.inbox.queue, true⟩ }
  | refused sent closed => exact .refused sent true
  | exhausted => exact .exhausted _
  | abandoned handled rest closed => exact .abandoned handled rest true

/-- The inbox is left to its fate unless a listener is still running. -/
def leave (m : Mailbox) (fate : Fate) (next? : Option Listener) : Mailbox :=
  if next?.isSome then m else { m with fate }

theorem Fits.listen (h : m.Fits handled (some l)) :
    (m.leave .exhausted l.step.2).Fits (handled ++ l.step.1.toList) l.step.2 := by
  cases h with
  | attached handled l =>
      obtain ⟨hstep, hinbox⟩ | ⟨sample?, next, hstep, hclosed, hqueue, -⟩ := l.step_cases
      · rw [hstep, hinbox]
        simpa [leave] using Fits.exhausted handled
      · have hnext := Fits.attached (handled ++ sample?.toList) next
        rw [List.append_assoc, ← hqueue, hclosed] at hnext
        rw [hstep]
        exact hnext

theorem Fits.shutdown (h : m.Fits handled (some l)) :
    (m.leave .abandoned none).Fits (handled ++ l.lastSample?.toList) none := by
  cases h with
  | attached handled l =>
      obtain ⟨rest, hrest⟩ := l.lastSample?_prefix
      have habandoned := Fits.abandoned (handled ++ l.lastSample?.toList) rest l.inbox.closed
      rw [List.append_assoc, hrest] at habandoned
      exact habandoned

end Mailbox

end DiscoveryGraph
