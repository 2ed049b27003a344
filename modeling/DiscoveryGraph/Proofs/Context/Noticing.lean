import DiscoveryGraph.Proofs.Cache.Notification
import DiscoveryGraph.Proofs.Context.Listening

/-!
# What a guard tells

As long as a context keeps the callback that it installed first, its guard is triggered
by each operation on the graph that does not fail, whoever carries it out, and by nothing
else unless somebody triggers it directly.  It stays so until notice is taken.  So
whoever takes notice learns whether anything was told since notice was taken last.
-/

namespace DiscoveryGraph.Context

variable {state : Type} {ctx next : Context state}

/-! ## The graph and its guard -/

theorem onCache_congr {α β : Type} {f : Cache → α × Cache} {g : Cache → β × Cache}
    (h : (f ctx.cache).2 = (g ctx.cache).2) : (ctx.onCache f).2 = (ctx.onCache g).2 := by
  simp only [onCache, h]

/-- The callback that triggers the guard is installed, and its runs are counted. -/
structure Watched (ctx : Context state) : Prop where
  callback : ctx.cache.callback = some guardCallback
  counts : ctx.cache.CountsCallback

theorem watched_new (gid : Gid) (enclave : String) (publisher : Publisher state)
    (outbox : state) : (new gid enclave publisher outbox).Watched where
  callback := rfl
  counts := (Cache.countsCallback_empty.step .setCallback).perform (.addParticipant gid enclave)

/-- The guard tells an operation that fails from one that does not. -/
theorem Watched.onCache_perform (h : ctx.Watched) (op : Operation) :
    let next := (ctx.onCache (·.perform op)).2
    next.Watched ∧ next.guard.triggered =
      (ctx.guard.triggered || !(ctx.cache.perform op).1.isFailure) := by
  intro next
  have hcounts : next.cache.CountsCallback := h.counts.perform op
  have hguard : next.guard =
      if ctx.cache.runCount guardCallback < next.cache.runCount guardCallback
      then ctx.guard.trigger else ctx.guard := rfl
  have hcache : next.cache = (ctx.cache.perform op).2 := rfl
  obtain ⟨r, hfailure, -, hperform⟩ | ⟨r, graph, heffect, -, hperform⟩ :=
    ctx.cache.perform_cases op
  · rw [hperform] at hcache
    refine ⟨⟨by rw [hcache]; exact h.callback, hcounts⟩, ?_⟩
    simp [hguard, hcache, hperform, hfailure]
  · rw [hperform] at hcache
    have hinstalled : Cache.CountsCallback { ctx.cache with graph } := h.counts
    have hran := Cache.runCount_notify hinstalled op.event guardCallback
    rw [if_pos h.callback] at hran
    refine ⟨⟨by rw [hcache]; exact h.callback, hcounts⟩, ?_⟩
    have hlt : ctx.cache.runCount guardCallback < next.cache.runCount guardCallback := by
      rw [hcache, hran]
      exact Nat.lt_succ_self _
    simp [hguard, if_pos hlt, hperform, heffect.isFailure_eq_false, Guard.trigger]

/-- Neither the callback nor the guard can tell the contexts apart. -/
structure Unheard (ctx next : Context state) : Prop where
  callback : next.cache.callback = ctx.cache.callback
  runs : next.cache.runs = ctx.cache.runs
  guard : next.guard = ctx.guard

theorem Watched.of_unheard (h : ctx.Watched) (hnext : Unheard ctx next) : next.Watched where
  callback := hnext.callback.trans h.callback
  counts := by
    intro k hk
    rw [hnext.runs]
    exact h.counts k (hnext.callback.symm.trans hk)

theorem unheard_onCache {α : Type} {f : Cache → α × Cache}
    (hcallback : (f ctx.cache).2.callback = ctx.cache.callback)
    (hruns : (f ctx.cache).2.runs = ctx.cache.runs) : Unheard ctx (ctx.onCache f).2 where
  callback := hcallback
  runs := hruns
  guard := by simp [onCache, Cache.runCount, hruns]

/-! ## Occurrences -/

/-- What can happen to a context as long as it has not ended and its callback is not
replaced.  A wait is a series of wakings, the first of them at once. -/
inductive Occurrence
  | call (c : Call)
  | perform (op : Operation)
  | subscribe
  | onChannel (number : Nat) (a : Channel.Act)
  | startListener (inbox : Inbox)
  | send (sample : Sample)
  | closeInbox
  | listen
  | shutdown
  | trigger
  | take
  | wake (timeUp : Bool)
  deriving DecidableEq

/-- What the guard answers, if it is asked and answers, and the context afterwards. -/
def occur (ctx : Context state) : Occurrence → Option Bool × Context state
  | .call c => (none, (ctx.call c).2)
  | .perform op => (none, (ctx.onCache (·.perform op)).2)
  | .subscribe => (none, (ctx.onCache (·.subscribe)).2)
  | .onChannel number a => (none, (ctx.onCache (·.onChannel number (·.act a))).2)
  | .startListener inbox => (none, (ctx.startListenerOn inbox).2)
  | .send sample => (none, ctx.send sample)
  | .closeInbox => (none, ctx.closeInbox)
  | .listen => (none, ctx.listen)
  | .shutdown => (none, ctx.shutdown)
  | .trigger => (none, { ctx with guard := ctx.guard.trigger })
  | .take => (some ctx.guard.take.1, { ctx with guard := ctx.guard.take.2 })
  | .wake timeUp =>
      ((ctx.guard.wake timeUp).1, { ctx with guard := (ctx.guard.wake timeUp).2 })

/-- The operation on the graph that is carried out, if there is one. -/
def operation? (ctx : Context state) : Occurrence → Option Operation
  | .call (.changeNode name action) => some (.changeNode ctx.gid name action)
  | .perform op => some op
  | .listen => (ctx.upcoming?.bind (Cache.news? ctx.gid)).map .update
  | .shutdown => (ctx.final?.bind (Cache.news? ctx.gid)).map .update
  | _ => none

/-- Either the guard is triggered directly or an operation is carried out that does not
fail. -/
def Tells (ctx : Context state) (x : Occurrence) : Prop :=
  x = .trigger ∨
    ∃ op, ctx.operation? x = some op ∧ (ctx.cache.perform op).1.isFailure = false

theorem handle?_eq_onCache (ctx : Context state) (sample? : Option Sample) :
    ctx.handle? sample? =
      match sample?.bind (Cache.news? ctx.gid) with
      | none => ctx
      | some s => (ctx.onCache (·.perform (.update s))).2 := by
  cases sample? with
  | none => rfl
  | some sample =>
      rw [Option.bind_some]
      cases hnews : Cache.news? ctx.gid sample with
      | none => exact handle_of_news?_eq_none hnews
      | some s =>
          have hlearn := Cache.learn_of_news? hnews ctx.cache
          exact onCache_congr (f := fun c => ((), c.learn ctx.gid sample)) hlearn

variable {x : Occurrence}

/-- What carries out an operation does to the graph and the guard just that, and asks
nothing. -/
theorem occur_of_operation? {op : Operation} (h : ctx.operation? x = some op) :
    ∃ outbox slot, ctx.occur x = (none, { (ctx.onCache (·.perform op)).2 with outbox, slot }) := by
  have hhandle : ∀ sample?, (sample?.bind (Cache.news? ctx.gid)).map Operation.update = some op →
      ctx.handle? sample? = (ctx.onCache (·.perform op)).2 := by
    intro sample? hop
    obtain ⟨s, hnews, rfl⟩ := Option.map_eq_some_iff.mp hop
    rw [handle?_eq_onCache, hnews]
  cases x with
  | call c =>
      cases c with
      | republish => contradiction
      | changeNode name action =>
          obtain rfl := Option.some.inj h
          have hprepare : (ctx.prepare (.changeNode name action)).2 =
              (ctx.onCache (·.perform (.changeNode ctx.gid name action))).2 :=
            onCache_congr (ctx.cache_prepare_changeNode name action)
          rw [← hprepare, occur, call_eq]
          cases (ctx.prepare (.changeNode name action)).1 with
          | error e => exact ⟨_, _, rfl⟩
          | ok s => exact ⟨_, _, rfl⟩
  | perform other =>
      obtain rfl := Option.some.inj h
      exact ⟨_, _, rfl⟩
  | listen =>
      obtain ⟨slot, hlisten⟩ := ctx.listen_eq_handle?
      rw [occur, hlisten, hhandle _ h]
      exact ⟨_, slot, rfl⟩
  | shutdown =>
      rw [occur, shutdown_eq_handle?, hhandle _ h]
      exact ⟨_, _, rfl⟩
  | _ => contradiction

theorem handle?_of_news?_eq_none {sample? : Option Sample}
    (h : (sample?.bind (Cache.news? ctx.gid)).map Operation.update = none) :
    ctx.handle? sample? = ctx := by
  rw [handle?_eq_onCache, Option.map_eq_none_iff.mp h]

theorem unheard_onInbox (ctx : Context state) (f : Inbox → Inbox) :
    Unheard ctx (ctx.onInbox f) := by
  obtain ⟨slot, hslot⟩ := ctx.onInbox_eq f
  rw [hslot]
  exact ⟨rfl, rfl, rfl⟩

/-- Where no operation is carried out, the callback does not run. -/
theorem occur_of_operation?_eq_none (h : ctx.operation? x = none) :
    (x ≠ .trigger ∧ (ctx.occur x).1 = none ∧ Unheard ctx (ctx.occur x).2) ∨
      x = .trigger ∨ x = .take ∨ ∃ timeUp, x = .wake timeUp := by
  cases x with
  | call c =>
      cases c with
      | changeNode name action => contradiction
      | republish =>
          refine .inl ⟨by simp, rfl, ?_⟩
          rw [occur, call_eq, prepare]
          cases ctx.cache.graph.snapshot? ctx.gid <;> exact ⟨rfl, rfl, rfl⟩
  | perform op => contradiction
  | subscribe =>
      refine .inl ⟨by simp, rfl, ?_⟩
      simp only [occur]
      exact unheard_onCache rfl rfl
  | onChannel number a =>
      refine .inl ⟨by simp, rfl, ?_⟩
      simp only [occur]
      apply unheard_onCache
      · unfold Cache.onChannel
        cases ctx.cache.channels[number]? <;> rfl
      · unfold Cache.onChannel
        cases ctx.cache.channels[number]? <;> rfl
  | startListener inbox =>
      refine .inl ⟨by simp, rfl, ?_⟩
      rw [occur, startListenerOn]
      cases ctx.slot <;> exact ⟨rfl, rfl, rfl⟩
  | send sample =>
      refine .inl ⟨by simp, rfl, ?_⟩
      simp only [occur]
      exact ctx.unheard_onInbox _
  | closeInbox =>
      refine .inl ⟨by simp, rfl, ?_⟩
      simp only [occur]
      exact ctx.unheard_onInbox _
  | listen =>
      obtain ⟨slot, hlisten⟩ := ctx.listen_eq_handle?
      refine .inl ⟨by simp, rfl, ?_⟩
      rw [occur, hlisten, handle?_of_news?_eq_none h]
      exact ⟨rfl, rfl, rfl⟩
  | shutdown =>
      refine .inl ⟨by simp, rfl, ?_⟩
      rw [occur, shutdown_eq_handle?, handle?_of_news?_eq_none h]
      exact ⟨rfl, rfl, rfl⟩
  | trigger => exact .inr (.inl rfl)
  | take => exact .inr (.inr (.inl rfl))
  | wake timeUp => exact .inr (.inr (.inr ⟨timeUp, rfl⟩))

theorem tells_of_operation? {op : Operation} (h : ctx.operation? x = some op) :
    ctx.Tells x ↔ (ctx.cache.perform op).1.isFailure = false := by
  constructor
  · rintro (rfl | ⟨other, hother, hsuccess⟩)
    · contradiction
    · rw [h] at hother
      obtain rfl := Option.some.inj hother
      exact hsuccess
  · exact fun hsuccess => .inr ⟨op, h, hsuccess⟩

theorem tells_of_operation?_eq_none (h : ctx.operation? x = none) :
    ctx.Tells x ↔ x = .trigger := by
  constructor
  · rintro (htrigger | ⟨op, hop, -⟩)
    · exact htrigger
    · rw [h] at hop
      contradiction
  · exact .inl

/-- Either nobody takes notice, and the guard is triggered afterwards if it was or if
something is told, or notice is taken, nothing is told, and the guard is reset. -/
theorem Watched.occur (h : ctx.Watched) (x : Occurrence) :
    (ctx.occur x).2.Watched ∧
      (((ctx.occur x).1 = none ∧
          ((ctx.occur x).2.guard.triggered = true ↔ ctx.guard.triggered = true ∨ ctx.Tells x)) ∨
        ((ctx.occur x).1 = some ctx.guard.triggered ∧ ¬ ctx.Tells x ∧
          (ctx.occur x).2.guard = .idle)) := by
  cases hop : ctx.operation? x with
  | some op =>
      obtain ⟨hwatched, hguard⟩ := h.onCache_perform op
      obtain ⟨outbox, slot, hoccur⟩ := occur_of_operation? hop
      rw [tells_of_operation? hop, hoccur]
      refine ⟨⟨hwatched.callback, hwatched.counts⟩, .inl ⟨rfl, ?_⟩⟩
      rw [hguard, Bool.or_eq_true, Bool.not_eq_true']
  | none =>
      rw [tells_of_operation?_eq_none hop]
      obtain ⟨hx, hnone, hunheard⟩ | rfl | rfl | ⟨timeUp, rfl⟩ :=
        occur_of_operation?_eq_none hop
      · refine ⟨h.of_unheard hunheard, .inl ⟨hnone, ?_⟩⟩
        rw [hunheard.guard]
        simp [hx]
      · exact ⟨⟨h.callback, h.counts⟩, .inl ⟨rfl, by simp [Context.occur, Guard.trigger]⟩⟩
      · exact ⟨⟨h.callback, h.counts⟩, .inr ⟨rfl, by simp, rfl⟩⟩
      · refine ⟨⟨h.callback, h.counts⟩, ?_⟩
        by_cases hanswers : (ctx.guard.triggered || timeUp) = true
        · exact .inr ⟨by simp [Context.occur, Guard.wake, hanswers], by simp,
            by simp [Context.occur, Guard.wake, hanswers]⟩
        · exact .inl ⟨by simp [Context.occur, Guard.wake, hanswers],
            by simp [Context.occur, Guard.wake, hanswers]⟩

theorem isSome_occur_iff :
    (ctx.occur x).1.isSome = true ↔
      x = .take ∨ ∃ timeUp, x = .wake timeUp ∧ (timeUp = true ∨ ctx.guard.triggered = true) := by
  constructor
  · intro hsome
    obtain ⟨b, hb⟩ := Option.isSome_iff_exists.mp hsome
    cases hop : ctx.operation? x with
    | some op =>
        obtain ⟨outbox, slot, hoccur⟩ := occur_of_operation? hop
        rw [hoccur] at hb
        contradiction
    | none =>
        obtain ⟨-, hnone, -⟩ | rfl | rfl | ⟨timeUp, rfl⟩ := occur_of_operation?_eq_none hop
        · rw [hnone] at hb
          contradiction
        · contradiction
        · exact .inl rfl
        · refine .inr ⟨timeUp, rfl, ?_⟩
          by_contra hasleep
          have hnone : (ctx.occur (.wake timeUp)).1 = none := by
            simp [Context.occur, Guard.wake, not_or.mp hasleep]
          rw [hnone] at hb
          contradiction
  · rintro (rfl | ⟨timeUp, rfl, hawake⟩)
    · rfl
    · obtain rfl | htriggered := hawake
      · simp [Context.occur, Guard.wake]
      · simp [Context.occur, Guard.wake, htriggered]

/-! ## Runs -/

def occurAll (ctx : Context state) (xs : List Occurrence) : Context state :=
  xs.foldl (fun ctx x => (ctx.occur x).2) ctx

/-- The answers of the guard in a run, the first one first. -/
def answers (ctx : Context state) : List Occurrence → List Bool
  | [] => []
  | x :: xs => (ctx.occur x).1.toList ++ (ctx.occur x).2.answers xs

/-- Something has been told since the guard last answered, or it has not answered yet. -/
def Unnoticed (start : Context state) (xs : List Occurrence) : Prop :=
  start.answers xs = [] ∨
    ∃ before x after, xs = before ++ x :: after ∧ (start.occurAll before).Tells x ∧
      (start.occurAll (before ++ [x])).answers after = []

variable {start : Context state} {xs : List Occurrence}

theorem occurAll_concat (start : Context state) (xs : List Occurrence) (x : Occurrence) :
    start.occurAll (xs ++ [x]) = ((start.occurAll xs).occur x).2 := by
  simp [occurAll]

theorem answers_concat (start : Context state) (xs : List Occurrence) (x : Occurrence) :
    start.answers (xs ++ [x]) = start.answers xs ++ ((start.occurAll xs).occur x).1.toList := by
  induction xs generalizing start with
  | nil => simp [answers, occurAll]
  | cons first xs ih =>
      rw [List.cons_append, answers, answers, ih, List.append_assoc]
      rfl

theorem answers_concat_eq_nil_iff :
    start.answers (xs ++ [x]) = [] ↔
      start.answers xs = [] ∧ ((start.occurAll xs).occur x).1 = none := by
  rw [answers_concat, List.append_eq_nil_iff, Option.toList_eq_nil_iff]

theorem fst_occur_of_tells (h : ctx.Tells x) : (ctx.occur x).1 = none := by
  obtain rfl | ⟨op, hop, -⟩ := h
  · rfl
  · obtain ⟨outbox, slot, hoccur⟩ := occur_of_operation? hop
    rw [hoccur]

theorem unnoticed_concat_iff :
    start.Unnoticed (xs ++ [x]) ↔
      ((start.occurAll xs).occur x).1 = none ∧
        (start.Unnoticed xs ∨ (start.occurAll xs).Tells x) := by
  have hsplit : ∀ before y after, start.occurAll (before ++ y :: after) =
      (start.occurAll (before ++ [y])).occurAll after := by
    intro before y after
    simp [occurAll]
  constructor
  · rintro (hnil | ⟨before, y, after, hxs, htells, hafter⟩)
    · obtain ⟨hnil, hnone⟩ := answers_concat_eq_nil_iff.mp hnil
      exact ⟨hnone, .inl (.inl hnil)⟩
    · obtain rfl | ⟨after, last, rfl⟩ := after.eq_nil_or_concat
      · obtain ⟨rfl, hx⟩ := List.append_inj' hxs rfl
        obtain rfl := List.singleton_inj.mp hx
        exact ⟨fst_occur_of_tells htells, .inr htells⟩
      · rw [List.concat_eq_append, ← List.cons_append, ← List.append_assoc] at hxs
        obtain ⟨rfl, hx⟩ := List.append_inj' hxs rfl
        obtain rfl := List.singleton_inj.mp hx
        rw [List.concat_eq_append, answers_concat_eq_nil_iff, ← hsplit] at hafter
        exact ⟨hafter.2, .inl (.inr ⟨before, y, after, rfl, htells, hafter.1⟩)⟩
  · rintro ⟨hnone, (hnil | ⟨before, y, after, rfl, htells, hafter⟩) | htells⟩
    · exact .inl (answers_concat_eq_nil_iff.mpr ⟨hnil, hnone⟩)
    · rw [hsplit] at hnone
      exact .inr ⟨before, y, after ++ [x], by simp, htells,
        answers_concat_eq_nil_iff.mpr ⟨hafter, hnone⟩⟩
    · exact .inr ⟨xs, x, [], rfl, htells, rfl⟩

/-- If the guard is triggered in the beginning, it is triggered exactly if something has
not been noticed. -/
theorem Watched.occurAll (h : start.Watched) (hstart : start.guard.triggered = true)
    (xs : List Occurrence) :
    (start.occurAll xs).Watched ∧
      ((start.occurAll xs).guard.triggered = true ↔ start.Unnoticed xs) := by
  induction xs using List.reverseRecOn with
  | nil => exact ⟨h, iff_of_true hstart (.inl rfl)⟩
  | append_singleton xs x ih =>
      obtain ⟨hwatched, htriggered⟩ := ih
      obtain ⟨hnext, ⟨hnone, hguard⟩ | ⟨hsome, -, hguard⟩⟩ := hwatched.occur x
      · rw [occurAll_concat, unnoticed_concat_iff, hguard, htriggered]
        exact ⟨hnext, (and_iff_right hnone).symm⟩
      · rw [occurAll_concat, unnoticed_concat_iff, hguard, hsome]
        exact ⟨hnext, by simp [Guard.idle]⟩

/-- After every run of a context, whatever operations are carried out and whatever
messages are handled: the guard is triggered exactly if some operation that did not fail,
or a direct trigger, came after the guard last answered, or if it has not answered yet.
The guard answers whoever takes notice, and a waiting thread if its time is up or the
guard is triggered; nothing else is answered.  The answer is whether the guard is
triggered, and resets it.  A wait that ends answers like one during which nothing
happened. -/
theorem guard_answers_what_was_told (gid : Gid) (enclave : String) (publisher : Publisher state)
    (outbox : state) (xs : List Occurrence) :
    let start := new gid enclave publisher outbox
    let ctx := start.occurAll xs
    (ctx.guard.triggered = true ↔ start.Unnoticed xs) ∧
      (∀ x, (ctx.occur x).1.isSome = true ↔
        x = .take ∨ ∃ timeUp, x = .wake timeUp ∧ (timeUp = true ∨ start.Unnoticed xs)) ∧
      (∀ x b, (ctx.occur x).1 = some b →
        (b = true ↔ start.Unnoticed xs) ∧ b = ctx.guard.triggered ∧
          (ctx.occur x).2.guard.triggered = false) ∧
      ∀ timeUp, timeUp = true ∨ start.Unnoticed xs →
        ctx.guard.wake timeUp = (some ctx.guard.waitUndisturbed.1, ctx.guard.waitUndisturbed.2) := by
  intro start ctx
  have hstart : start.Watched := watched_new gid enclave publisher outbox
  obtain ⟨hwatched, htriggered⟩ := hstart.occurAll rfl xs
  refine ⟨htriggered, ?_, ?_, ?_⟩
  · intro x
    rw [isSome_occur_iff, htriggered]
  · intro x b hb
    obtain ⟨-, ⟨hnone, -⟩ | ⟨hsome, -, hguard⟩⟩ := hwatched.occur x
    · rw [hnone] at hb
      contradiction
    · rw [hsome] at hb
      obtain rfl := Option.some.inj hb
      exact ⟨htriggered, rfl, by rw [hguard]; rfl⟩
  · intro timeUp hawake
    have hanswers : (ctx.guard.triggered || timeUp) = true := by
      rw [Bool.or_eq_true, htriggered]
      exact hawake.symm
    simp [Guard.wake, hanswers, Guard.waitUndisturbed, Guard.take]

/-- Construction counts as a change, so the first answer is always the same. -/
example (gid : Gid) (enclave : String) (publisher : Publisher state) (outbox : state) :
    (new gid enclave publisher outbox).answers
      [.take, .wake false, .wake true, .perform (.addParticipant gid enclave), .wake false,
        .take] = [true, false, true, false] :=
  rfl

end DiscoveryGraph.Context
