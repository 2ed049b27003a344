import DiscoveryGraph.Proofs.Context.Mailbox

/-!
# A context and its inboxes

A context is used with inboxes, one after the other and in any order: listeners are
started and stopped, messages are sent, inboxes are closed, and listeners take steps.
Each step concerns one inbox, and what has been handled of each inbox stays in agreement
with what has become of it.
-/

namespace DiscoveryGraph

/-- A context with its inboxes, and a record of what has been handled. -/
structure Mailroom (state : Type) where
  context : Context state
  mailboxes : Nat → Mailbox
  /-- The inbox on which a listener was started last. -/
  current : Nat
  /-- The messages handled, each with its inbox, the first one first. -/
  log : List (Nat × Sample)

namespace Mailroom

variable {state : Type} {w : Mailroom state} {origin : Context state} {j k : Nat}

/-- A context without a listener, and inboxes to which nothing was sent. -/
def opening (ctx : Context state) : Mailroom state where
  context := { ctx with slot := .vacant }
  mailboxes _ := ⟨[], false, .unclaimed⟩
  current := 0
  log := []

/-- The messages of an inbox that have been handled. -/
def handled (w : Mailroom state) (k : Nat) : List Sample :=
  (w.log.filter (·.1 = k)).map (·.2)

/-- The listener that is running on an inbox, if there is one. -/
def listener? (w : Mailroom state) (k : Nat) : Option Listener :=
  if k = w.current then w.context.listener? else none

/-! ## Steps -/

inductive Step
  | start (number : Nat)
  | send (number : Nat) (sample : Sample)
  | close (number : Nat)
  | listen
  | shutdown
  deriving DecidableEq

/-- Gives an inbox to the context. -/
def start (w : Mailroom state) (k : Nat) : Mailroom state :=
  match w.context.startListenerOn (w.mailboxes k).inbox with
  | (.ok (), context) =>
      { w with
        context, current := k
        mailboxes := Function.update w.mailboxes k { w.mailboxes k with fate := .attached } }
  | (.error _, context) =>
      { w with
        context
        mailboxes := Function.update w.mailboxes k { w.mailboxes k with fate := .refused } }

/-- Takes over what the listener has done, or what was done to it. -/
def record (w : Mailroom state) (next : Context state) (sample? : Option Sample) (fate : Fate) :
    Mailroom state :=
  { w with
    context := next
    mailboxes :=
      if w.context.isListening then
        Function.update w.mailboxes w.current
          ((w.mailboxes w.current).leave fate next.listener?)
      else w.mailboxes
    log := w.log ++ (sample?.map (w.current, ·)).toList }

/-- An inbox can be given away only once.  What is sent to an inbox that is closed or
that nobody has is lost. -/
def step (w : Mailroom state) : Step → Mailroom state
  | .start k => if (w.mailboxes k).fate = .unclaimed then w.start k else w
  | .send k sample =>
      let m := w.mailboxes k
      if m.accepts then
        { w with
          context := if m.fate = .attached then w.context.send sample else w.context
          mailboxes := Function.update w.mailboxes k { m with sent := m.sent ++ [sample] } }
      else w
  | .close k =>
      let m := w.mailboxes k
      { w with
        context := if m.fate = .attached then w.context.closeInbox else w.context
        mailboxes := Function.update w.mailboxes k { m with closed := true } }
  | .listen => w.record w.context.listen w.context.upcoming? .exhausted
  | .shutdown => w.record w.context.shutdown w.context.final? .abandoned

def run (w : Mailroom state) (steps : List Step) : Mailroom state := steps.foldl step w

/-! ## What every run keeps -/

/-- The messages handled are those that have reached the graph, and for each inbox they
are as its fate demands. -/
structure Orderly (origin : Context state) (w : Mailroom state) : Prop where
  gid : w.context.gid = origin.gid
  cache : w.context.cache = (w.log.map (·.2)).foldl (Cache.learn origin.gid) origin.cache
  fits : ∀ k, (w.mailboxes k).Fits (w.handled k) (w.listener? k)

theorem orderly_opening (ctx : Context state) : Orderly ctx (opening ctx) where
  gid := rfl
  cache := rfl
  fits k := by
    have hnone : (opening ctx).listener? k = none := ite_self none
    rw [hnone]
    exact .unclaimed [] false

theorem listener?_current (w : Mailroom state) : w.listener? w.current = w.context.listener? :=
  if_pos rfl

theorem listener?_of_ne (h : k ≠ w.current) : w.listener? k = none := if_neg h

theorem listener?_eq_none (h : w.context.listener? = none) (k : Nat) : w.listener? k = none := by
  rw [listener?, h, ite_self]

theorem listener?_eq_some_iff {l : Listener} :
    w.listener? k = some l ↔ k = w.current ∧ w.context.listener? = some l := by
  rw [listener?]
  by_cases hk : k = w.current <;> simp [hk]

theorem fits_update {mailboxes : Nat → Mailbox} {m : Mailbox} {handled : Nat → List Sample}
    {listener? : Nat → Option Listener} (hself : m.Fits (handled k) (listener? k))
    (hother : ∀ j, j ≠ k → (mailboxes j).Fits (handled j) (listener? j)) (j : Nat) :
    (Function.update mailboxes k m j).Fits (handled j) (listener? j) := by
  by_cases hj : j = k
  · rw [hj, Function.update_self]
    exact hself
  · rw [Function.update_of_ne hj]
    exact hother j hj

theorem start_of_listener?_eq_none (h : w.context.listener? = none) :
    w.start k =
      { w with
        context := { w.context with slot := .running (.start (w.mailboxes k).inbox) }
        current := k
        mailboxes := Function.update w.mailboxes k
          { w.mailboxes k with fate := .attached } } := by
  simp only [start, Context.startListenerOn_of_listener?_eq_none h]

theorem start_of_listener?_eq_some {l : Listener} (h : w.context.listener? = some l) :
    w.start k =
      { w with
        mailboxes := Function.update w.mailboxes k
          { w.mailboxes k with fate := .refused } } := by
  simp only [start, Context.startListenerOn_of_listener?_eq_some h]

theorem handled_record (next : Context state) (sample? : Option Sample) (fate : Fate) (k : Nat) :
    (w.record next sample? fate).handled k =
      w.handled k ++ if k = w.current then sample?.toList else [] := by
  cases sample? with
  | none => simp [handled, record]
  | some sample =>
      by_cases hk : k = w.current
      · simp [handled, record, hk]
      · simp [handled, record, hk, Ne.symm hk]

theorem mailboxes_record_of_listener? {l : Listener} (h : w.context.listener? = some l)
    (next : Context state) (sample? : Option Sample) (fate : Fate) :
    (w.record next sample? fate).mailboxes =
      Function.update w.mailboxes w.current
        ((w.mailboxes w.current).leave fate next.listener?) := by
  simp [record, Context.isListening_eq, h]

theorem mailboxes_record_of_listener?_eq_none (h : w.context.listener? = none)
    (next : Context state) (sample? : Option Sample) (fate : Fate) :
    (w.record next sample? fate).mailboxes = w.mailboxes := by
  simp [record, Context.isListening_eq, h]

theorem listener?_record (next : Context state) (sample? : Option Sample) (fate : Fate)
    (k : Nat) :
    (w.record next sample? fate).listener? k = if k = w.current then next.listener? else none :=
  rfl

namespace Orderly

theorem attached_iff (h : Orderly origin w) :
    (w.mailboxes k).fate = .attached ↔ k = w.current ∧ w.context.isListening = true := by
  rw [(h.fits k).attached_iff, Option.isSome_iff_exists, Context.isListening_eq,
    Option.isSome_iff_exists]
  simp only [listener?_eq_some_iff, exists_and_left]

theorem fits_of_ne (h : Orderly origin w) (hk : k ≠ w.current) :
    (w.mailboxes k).Fits (w.handled k) none := by
  have hfits := h.fits k
  rw [listener?_of_ne hk] at hfits
  exact hfits

theorem start (h : Orderly origin w) (hfate : (w.mailboxes k).fate = .unclaimed) :
    Orderly origin (w.start k) := by
  cases hlistener : w.context.listener? with
  | none =>
      rw [start_of_listener?_eq_none hlistener]
      refine ⟨h.gid, h.cache, fits_update ?_ fun j hj => ?_⟩
      · rw [listener?_current]
        exact (h.fits k).claim hfate
      · have hfits := h.fits j
        rw [listener?_eq_none hlistener] at hfits
        rw [listener?_of_ne hj]
        exact hfits
  | some l =>
      rw [start_of_listener?_eq_some hlistener]
      exact ⟨h.gid, h.cache, fits_update ((h.fits k).refuse hfate) fun j _ => h.fits j⟩

/-- What is done to an inbox is done to the inbox of its listener as well. -/
theorem onInbox (h : Orderly origin w) {m : Mailbox} {f : Inbox → Inbox}
    (hfits : m.Fits (w.handled k)
      ((w.listener? k).map fun l => { l with inbox := f l.inbox })) :
    Orderly origin
      { w with
        context := if (w.mailboxes k).fate = .attached then w.context.onInbox f else w.context
        mailboxes := Function.update w.mailboxes k m } := by
  by_cases hattached : (w.mailboxes k).fate = .attached
  · obtain ⟨rfl, -⟩ := h.attached_iff.mp hattached
    obtain ⟨slot, hslot⟩ := w.context.onInbox_eq f
    rw [listener?_current, ← Context.listener?_onInbox] at hfits
    simp only [if_pos hattached]
    refine ⟨?_, ?_, fits_update ?_ fun j hj => ?_⟩
    · rw [hslot]
      exact h.gid
    · rw [hslot]
      exact h.cache
    · rw [listener?_current]
      exact hfits
    · rw [Mailroom.listener?, if_neg hj]
      exact h.fits_of_ne hj
  · have hnone : w.listener? k = none := by
      rw [(h.fits k).attached_iff, Option.not_isSome_iff_eq_none] at hattached
      exact hattached
    rw [hnone, Option.map_none, ← hnone] at hfits
    simp only [if_neg hattached]
    exact ⟨h.gid, h.cache, fits_update hfits fun j _ => h.fits j⟩

/-- What the listener does concerns its inbox alone. -/
theorem record (h : Orderly origin w) {next : Context state} {sample? : Option Sample}
    {fate : Fate} (hnext : ∃ slot, next = { w.context.handle? sample? with slot })
    (hidle : w.context.listener? = none → sample? = none ∧ next.listener? = none)
    (hbusy : ∀ l, w.context.listener? = some l → ∀ (m : Mailbox) (handled : List Sample),
      m.Fits handled (some l) →
        (m.leave fate next.listener?).Fits (handled ++ sample?.toList) next.listener?) :
    Orderly origin (w.record next sample? fate) := by
  obtain ⟨slot, hslot⟩ := hnext
  refine ⟨?_, ?_, ?_⟩
  · have hgid : next.gid = w.context.gid := by
      rw [hslot]
      exact Context.gid_handle? _ _
    exact hgid.trans h.gid
  · have hcache : next.cache = sample?.toList.foldl (Cache.learn origin.gid) w.context.cache := by
      rw [hslot, ← h.gid]
      cases sample? <;> rfl
    rw [Mailroom.record, hcache, h.cache]
    cases sample? <;> simp
  · cases hlistener : w.context.listener? with
    | none =>
        obtain ⟨hsample, hended⟩ := hidle hlistener
        intro k
        have hfits := h.fits k
        rw [listener?_eq_none hlistener] at hfits
        rw [mailboxes_record_of_listener?_eq_none hlistener, handled_record,
          listener?_eq_none hended, hsample]
        simpa using hfits
    | some l =>
        have hcurrent := h.fits w.current
        rw [listener?_current, hlistener] at hcurrent
        rw [mailboxes_record_of_listener? hlistener]
        refine fits_update ?_ fun j hj => ?_
        · rw [handled_record, if_pos rfl, listener?_record, if_pos rfl]
          exact hbusy l hlistener _ _ hcurrent
        · rw [handled_record, if_neg hj, List.append_nil, listener?_record, if_neg hj]
          exact h.fits_of_ne hj

theorem step (h : Orderly origin w) (s : Step) : Orderly origin (w.step s) := by
  cases s with
  | start k =>
      rw [Mailroom.step]
      by_cases hfate : (w.mailboxes k).fate = .unclaimed
      · rw [if_pos hfate]
        exact h.start hfate
      · rw [if_neg hfate]
        exact h
  | send k sample =>
      rw [Mailroom.step]
      by_cases haccepts : (w.mailboxes k).accepts = true
      · simp only [if_pos haccepts]
        exact h.onInbox ((h.fits k).send haccepts sample)
      · simp only [if_neg haccepts]
        exact h
  | close k => exact h.onInbox (h.fits k).close
  | listen =>
      refine h.record w.context.listen_eq_handle? ?_ ?_
      · intro hnone
        simp [Context.upcoming?_eq, Context.listener?_listen, hnone]
      · intro l hl m handled hfits
        rw [Context.upcoming?_eq, Context.listener?_listen, hl]
        exact hfits.listen
  | shutdown =>
      refine h.record ⟨_, w.context.shutdown_eq_handle?⟩ ?_ ?_
      · intro hnone
        simp [Context.final?_eq, Context.listener?_shutdown, hnone]
      · intro l hl m handled hfits
        rw [Context.final?_eq, Context.listener?_shutdown, hl]
        exact hfits.shutdown

theorem run (h : Orderly origin w) (steps : List Step) : Orderly origin (w.run steps) := by
  induction steps generalizing w with
  | nil => exact h
  | cons s steps ih => exact ih (h.step s)

end Orderly

end Mailroom

end DiscoveryGraph
