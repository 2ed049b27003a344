import DiscoveryGraph.Proofs.Context.Calls

/-!
# What a context sends and receives

Publishing into an outbox that somebody reads either fails and changes nothing,
or puts exactly the message of the snapshot behind the others.  The listener
handles the messages of its inbox in their order, at most one with each step.
-/

namespace DiscoveryGraph.Context

/-! ## Sending -/

theorem publish_cases {ctx : Context Outbox} {memory : Cdr.Memory}
    (hpublisher : ctx.publisher = Outbox.publisher memory)
    (hconnected : ctx.outbox.connected = true) (s : Snapshot) :
    (∃ e, ctx.publish s = (.error e, ctx)) ∨
    ∃ sample, s.encode memory = .ok sample ∧
      ctx.publish s = (.ok (),
        { ctx with
          outbox := { ctx.outbox with samples := ctx.outbox.samples ++ [sample] } }) := by
  simp only [publish, hpublisher, Outbox.publisher]
  cases hencode : s.encode memory with
  | error e => exact .inl ⟨e, by rw [← hpublisher]⟩
  | ok sample => exact .inr ⟨sample, rfl, by simp only [hconnected, if_true, ← hpublisher]⟩

/-! ## Receiving -/

variable {state : Type} {ctx : Context state}

/-- A message sets the nodes of its sender, unless it cannot be read or the
sender is the context itself. -/
theorem entry_handle (ctx : Context state) (sample : Sample) (gid : Gid) :
    (ctx.handle sample).entry gid =
      match Snapshot.decode sample with
      | .error _ => ctx.entry gid
      | .ok s =>
          if gid = s.participant ∧ gid ≠ ctx.gid then
            some { (ctx.entry gid).getD .empty with nodes := s.nodes }
          else ctx.entry gid := by
  have hlearn : (ctx.handle sample).entry gid =
      (ctx.cache.learn ctx.gid sample).graph.participants[gid]? :=
    rfl
  rw [hlearn, Cache.learn]
  cases Snapshot.decode sample with
  | error e => rfl
  | ok s =>
      by_cases hown : s.participant = ctx.gid
      · have hneither : ¬ (gid = s.participant ∧ gid ≠ ctx.gid) := by
          rintro ⟨hsender, hother⟩
          exact hother (hsender.trans hown)
        simp only [if_pos hown, if_neg hneither]
        rfl
      · simp only [if_neg hown, Cache.commit, Graph.update, Cache.notify]
        rw [Graph.getElem?_withParticipant]
        by_cases hsender : gid = s.participant
        · have hother : gid ≠ ctx.gid := hsender ▸ hown
          rw [if_pos hsender, if_pos ⟨hsender, hother⟩, hsender]
          rfl
        · rw [if_neg hsender, if_neg fun h => hsender h.1]
          rfl

theorem entry_handle_gid (ctx : Context state) (sample : Sample) :
    (ctx.handle sample).entry ctx.gid = ctx.entry ctx.gid := by
  rw [entry_handle]
  cases Snapshot.decode sample with
  | error e => rfl
  | ok s => exact if_neg fun h => h.2 rfl

theorem entry_handle_of_decode {sample : Sample} {s : Snapshot}
    (hdecode : Snapshot.decode sample = .ok s) (gid : Gid) :
    (ctx.handle sample).entry gid =
      if gid = s.participant ∧ gid ≠ ctx.gid then
        some { (ctx.entry gid).getD .empty with nodes := s.nodes }
      else ctx.entry gid := by
  rw [entry_handle, hdecode]

/-! ## The steps of the listener -/

theorem gid_handle? (ctx : Context state) (sample? : Option Sample) :
    (ctx.handle? sample?).gid = ctx.gid := by
  cases sample? <;> rfl

theorem entry_handle?_gid (ctx : Context state) (sample? : Option Sample) :
    (ctx.handle? sample?).entry ctx.gid = ctx.entry ctx.gid := by
  cases sample? with
  | none => rfl
  | some sample => exact entry_handle_gid ctx sample

theorem gid_listen (ctx : Context state) : ctx.listen.gid = ctx.gid := by
  unfold listen
  cases ctx.slot with
  | running l => exact gid_handle? _ l.step.1
  | _ => rfl

/-- Listening leaves the own entry as it is, whatever the listener receives. -/
theorem entry_listen_gid (ctx : Context state) :
    ctx.listen.entry ctx.gid = ctx.entry ctx.gid := by
  unfold listen
  cases ctx.slot with
  | running l => exact entry_handle?_gid _ l.step.1
  | _ => rfl

theorem ownNodes_listen (ctx : Context state) : ctx.listen.ownNodes = ctx.ownNodes := by
  rw [ownNodes_eq, gid_listen, entry_listen_gid]
  rfl

/-- The message that the next step of the listener handles, if it handles one. -/
def upcoming? (ctx : Context state) : Option Sample :=
  match ctx.slot with
  | .running l => l.step.1
  | _ => none

/-- The message that is still handled when the listener is stopped. -/
def final? (ctx : Context state) : Option Sample :=
  match ctx.slot with
  | .running l => l.lastSample?
  | _ => none

/-- A message is handled in the same way whatever the listener does. -/
theorem handle?_slot (ctx : Context state) (slot : ListenerSlot) (sample? : Option Sample) :
    ({ ctx with slot }).handle? sample? = { ctx.handle? sample? with slot } := by
  cases sample? <;> rfl

theorem listen_eq_handle? (ctx : Context state) :
    ∃ slot, ctx.listen = { ctx.handle? ctx.upcoming? with slot } := by
  unfold listen upcoming?
  cases hslot : ctx.slot with
  | running l => exact ⟨_, handle?_slot ctx _ l.step.1⟩
  | _ => exact ⟨ctx.slot, rfl⟩

theorem shutdown_eq_handle? (ctx : Context state) :
    ctx.shutdown = { ctx.handle? ctx.final? with slot := .vacant } := by
  unfold shutdown final?
  cases ctx.slot with
  | running l => exact handle?_slot ctx .vacant l.lastSample?
  | _ => rfl

theorem onInbox_eq (ctx : Context state) (f : Inbox → Inbox) :
    ∃ slot, ctx.onInbox f = { ctx with slot } := by
  unfold onInbox
  cases ctx.slot with
  | running l => exact ⟨_, rfl⟩
  | _ => exact ⟨ctx.slot, rfl⟩

/-- A listener is running with these messages in its inbox, which is open. -/
def Hears (ctx : Context state) (queue : List Sample) (phase : Phase) : Prop :=
  ctx.slot = .running ⟨⟨queue, false⟩, phase⟩

variable {queue : List Sample} {phase : Phase}

theorem Hears.send (h : ctx.Hears queue phase) (sample : Sample) :
    ctx.send sample = { ctx with slot := .running ⟨⟨queue ++ [sample], false⟩, phase⟩ } := by
  simp [Context.send, onInbox, show ctx.slot = _ from h]

/-- A step of the listener goes on to the other phase.  It handles the oldest
message exactly if it was receiving and there is one. -/
theorem Hears.listen_cases (h : ctx.Hears queue phase) :
    (ctx.upcoming? = none ∧ ∃ next,
      ctx.listen = { ctx with slot := .running ⟨⟨queue, false⟩, next⟩ }) ∨
    ∃ sample rest, queue = sample :: rest ∧ ctx.upcoming? = some sample ∧ ∃ next,
      ctx.listen =
        { ctx with slot := .running ⟨⟨rest, false⟩, next⟩ }.handle sample := by
  have hslot : ctx.slot = .running ⟨⟨queue, false⟩, phase⟩ := h
  cases phase with
  | beforeReceiving =>
      refine .inl ⟨?_, .receiving, ?_⟩
      · simp only [upcoming?, hslot, Listener.step]
      · simp only [listen, hslot, Listener.step, handle?]
  | receiving =>
      cases queue with
      | nil =>
          refine .inl ⟨?_, .beforeReceiving, ?_⟩
          · simp [upcoming?, hslot, Listener.step, Listener.receive]
          · simp [listen, hslot, Listener.step, Listener.receive, handle?]
      | cons sample rest =>
          refine .inr ⟨sample, rest, rfl, ?_, .beforeReceiving, ?_⟩
          · simp [upcoming?, hslot, Listener.step, Listener.receive]
          · simp [listen, hslot, Listener.step, Listener.receive, handle?]

end DiscoveryGraph.Context
