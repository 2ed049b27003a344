import DiscoveryGraph.Proofs.Cache.News
import DiscoveryGraph.Proofs.Context.Messages

/-!
# What a listener leaves behind

A step of a listener handles the oldest message of its inbox or none.  So what the
cache will be once the inbox is handled does not change from step to step, and as a
message takes at most two steps, the inbox gets handled.  What the cache is then
depends on the news only, and of the news from each sender only on the last one.
-/

namespace DiscoveryGraph.Context

variable {state : Type} {ctx : Context state}

/-- The messages that the listener has not handled yet. -/
def pending (ctx : Context state) : List Sample :=
  match ctx.slot with
  | .running l => l.inbox.queue
  | _ => []

/-- A bound on the steps in which the listener handles its inbox. -/
def due (ctx : Context state) : Nat :=
  match ctx.slot with
  | .running ⟨inbox, .beforeReceiving⟩ => 2 * inbox.queue.length + 1
  | .running ⟨inbox, .receiving⟩ => 2 * inbox.queue.length
  | _ => 0

/-- The context with a listener whose inbox holds the messages. -/
def hearing (ctx : Context state) (samples : List Sample) (closed : Bool) (phase : Phase) :
    Context state :=
  { ctx with slot := .running ⟨⟨samples, closed⟩, phase⟩ }

/-- A step handles the oldest message, or none, and then no message gets lost. -/
theorem listen_cases (ctx : Context state) :
    (∃ slot, ctx.listen = { ctx with slot } ∧ ctx.listen.pending = ctx.pending ∧
      (ctx.pending ≠ [] → ctx.listen.due < ctx.due)) ∨
    ∃ sample slot, ctx.listen = { ctx with slot }.handle sample ∧
      ctx.pending = sample :: ctx.listen.pending ∧ ctx.listen.due < ctx.due := by
  unfold listen
  cases hslot : ctx.slot with
  | running l =>
      obtain ⟨⟨queue, closed⟩, phase⟩ := l
      cases phase with
      | beforeReceiving =>
          refine .inl ⟨_, rfl, ?_, ?_⟩
          · simp [handle?, pending, hslot, Listener.step]
          · simp [handle?, due, hslot, Listener.step]
      | receiving =>
          cases queue with
          | nil =>
              refine .inl ⟨if closed then .ended else .running ⟨⟨[], closed⟩, .beforeReceiving⟩,
                ?_, ?_, ?_⟩
              · cases closed <;> simp [handle?, Listener.step, Listener.receive]
              · cases closed <;> simp [handle?, pending, hslot, Listener.step, Listener.receive]
              · simp [pending, hslot]
          | cons sample rest =>
              refine .inr ⟨sample, .running ⟨⟨rest, closed⟩, .beforeReceiving⟩, ?_, ?_, ?_⟩
              · simp [handle?, Listener.step, Listener.receive]
              · simp [handle?, pending, hslot, Listener.step, Listener.receive, handle, onCache]
              · simp [handle?, due, hslot, Listener.step, Listener.receive, handle, onCache]
                omega
  | _ => exact .inl ⟨ctx.slot, by simp, by simp [pending, hslot], by simp [pending, hslot]⟩

theorem cache_handle (ctx : Context state) (sample : Sample) :
    (ctx.handle sample).cache = ctx.cache.learn ctx.gid sample := rfl

/-- A message that is no news has no effect. -/
theorem handle_of_news?_eq_none {sample : Sample} (h : Cache.news? ctx.gid sample = none) :
    ctx.handle sample = ctx := by
  rw [handle, onCache]
  simp [Cache.learn_of_news?_eq_none h]

/-- The cache once the inbox is handled. -/
def outlook (ctx : Context state) : Cache := ctx.pending.foldl (Cache.learn ctx.gid) ctx.cache

theorem outlook_listen (ctx : Context state) : ctx.listen.outlook = ctx.outlook := by
  obtain ⟨slot, hlisten, hpending, -⟩ | ⟨sample, slot, hlisten, hpending, -⟩ := ctx.listen_cases
  · rw [outlook, outlook, hpending, hlisten]
  · rw [outlook, outlook, gid_listen, hpending, List.foldl_cons, hlisten, cache_handle]

theorem pending_listen_of_eq_nil (h : ctx.pending = []) : ctx.listen.pending = [] := by
  obtain ⟨slot, -, hpending, -⟩ | ⟨sample, slot, -, hpending, -⟩ := ctx.listen_cases
  · exact hpending.trans h
  · rw [h] at hpending
    contradiction

theorem due_listen_lt (h : ctx.pending ≠ []) : ctx.listen.due < ctx.due := by
  obtain ⟨slot, -, -, hlt⟩ | ⟨sample, slot, -, -, hlt⟩ := ctx.listen_cases
  · exact hlt h
  · exact hlt

theorem pending_eq_nil_of_due (h : ctx.due = 0) : ctx.pending = [] := by
  by_contra hpending
  have hlt := due_listen_lt hpending
  omega

/-! ## Several steps -/

theorem repeat_listen_succ (n : Nat) (ctx : Context state) :
    Nat.repeat listen (n + 1) ctx = Nat.repeat listen n ctx.listen := by
  induction n with
  | zero => rfl
  | succ n ih => exact congrArg listen ih

theorem outlook_repeat_listen (n : Nat) (ctx : Context state) :
    (Nat.repeat listen n ctx).outlook = ctx.outlook := by
  induction n with
  | zero => rfl
  | succ n ih => exact (outlook_listen _).trans ih

theorem pending_repeat_listen_of_eq_nil (h : ctx.pending = []) (n : Nat) :
    (Nat.repeat listen n ctx).pending = [] := by
  induction n with
  | zero => exact h
  | succ n ih => exact pending_listen_of_eq_nil ih

theorem pending_repeat_listen {n : Nat} (h : ctx.due ≤ n) :
    (Nat.repeat listen n ctx).pending = [] := by
  -- A step lowers the bound as long as messages are pending.
  induction n generalizing ctx with
  | zero => exact pending_eq_nil_of_due (Nat.le_zero.mp h)
  | succ n ih =>
      by_cases hpending : ctx.pending = []
      · exact pending_repeat_listen_of_eq_nil hpending (n + 1)
      · have hlt := due_listen_lt hpending
        rw [repeat_listen_succ]
        exact ih (by omega)

theorem due_le_stepsToSettle (ctx : Context state) : ctx.due ≤ ctx.stepsToSettle := by
  unfold due stepsToSettle
  cases ctx.slot with
  | running l =>
      obtain ⟨inbox, phase⟩ := l
      cases phase <;> simp
  | _ => exact Nat.le_refl _

theorem cache_settle (ctx : Context state) : ctx.settle.cache = ctx.outlook := by
  have hpending : ctx.settle.pending = [] := pending_repeat_listen ctx.due_le_stepsToSettle
  have houtlook : ctx.settle.outlook = ctx.outlook := outlook_repeat_listen _ ctx
  rw [← houtlook, outlook, hpending]
  rfl

theorem cache_settle_hearing (ctx : Context state) (samples : List Sample) (closed : Bool)
    (phase : Phase) :
    (ctx.hearing samples closed phase).settle.cache =
      ctx.cache.hear (samples.filterMap (Cache.news? ctx.gid)) := by
  rw [cache_settle, ← Cache.foldl_learn]
  rfl

/-- Whatever is in the inbox of a listener, once it is handled: the entities, the
enclaves and the own entry are as before, and the nodes of any other participant are
those of its last message that could be read, if there is one.  Messages that cannot
be read and messages from the context itself have no effect at all.  The callback has
run, and each channel was offered an event, once for each of the others.  The graph
depends on the order of messages from the same sender only. -/
theorem last_news_wins (ctx : Context state) (samples : List Sample) (closed : Bool)
    (phase : Phase) :
    let before := ctx.cache
    let after := (ctx.hearing samples closed phase).settle.cache
    let news := samples.filterMap (Cache.news? ctx.gid)
    (∀ kind, after.graph.entities kind = before.graph.entities kind) ∧
      (∀ (gid : Gid) (p : Participant), before.graph.participants[gid]? = some p →
        ∃ nodes, after.graph.participants[gid]? = some { p with nodes }) ∧
      after.graph.participants[ctx.gid]? = before.graph.participants[ctx.gid]? ∧
      (∀ gid, after.graph.participants[gid]? =
        match (news.filter (·.participant = gid)).getLast? with
        | none => before.graph.participants[gid]?
        | some s =>
            some { before.graph.participants[gid]?.getD ⟨"", []⟩ with nodes := s.nodes }) ∧
      (∀ sample, (∀ s, Snapshot.decode sample = .ok s → s.participant = ctx.gid) →
        ctx.handle sample = ctx) ∧
      (after.callback = before.callback ∧
        (after.runs = match before.callback with
          | none => before.runs
          | some k => before.runs.modify k (· + news.length)) ∧
        after.channels = before.channels.map fun channel =>
          (news.map fun s => Event.participantChanged s.participant).foldl Channel.offer
            channel) ∧
      ∀ others : List Sample,
        (∀ gid, others.filter (Cache.sender? · = some gid) =
          samples.filter (Cache.sender? · = some gid)) →
        (ctx.hearing others closed phase).settle.cache.graph = after.graph := by
  intro before after news
  have hafter : after = before.hear news := cache_settle_hearing ctx samples closed phase
  rw [hafter]
  refine ⟨before.entities_hear news, ?_, before.participants_hear_own samples, ?_, ?_,
    ⟨before.callback_hear news, before.runs_hear news, before.channels_hear news⟩, ?_⟩
  · intro gid p hp
    rw [Cache.getElem?_participants_hear]
    cases (news.filter (·.participant = gid)).getLast? with
    | none => exact ⟨p.nodes, hp⟩
    | some s => exact ⟨s.nodes, by simp [Graph.participantOrEmpty, hp]⟩
  · intro gid
    exact before.getElem?_participants_hear news gid
  · intro sample hsample
    exact handle_of_news?_eq_none (Cache.news?_eq_none_iff.mpr hsample)
  · intro others hothers
    rw [cache_settle_hearing]
    exact Cache.graph_hear_congr hothers before

end DiscoveryGraph.Context
