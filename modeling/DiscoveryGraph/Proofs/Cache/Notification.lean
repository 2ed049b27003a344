import DiscoveryGraph.Proofs.Cache.Runs

/-!
# Who is told about an operation

An operation that fails leaves the whole cache as it is.  Any other operation
tells everybody once: the callback that is installed runs once, and the channels
are offered one event, about the gid and the kind of endpoint that the operation
is about.  Callbacks that were replaced or removed do not run.

That the installed callback runs at all rests on an invariant, namely that its
runs are counted.  No state that violates it can be reached.
-/

namespace DiscoveryGraph.Cache

variable {c : Cache}

/-- The runs of the installed callback are counted. -/
def CountsCallback (c : Cache) : Prop := ∀ k, c.callback = some k → k < c.runs.length

theorem countsCallback_empty : empty.CountsCallback := by
  intro k hk
  contradiction

/-! ## Telling about an event -/

theorem length_runs_notify (c : Cache) (e : Event) :
    (c.notify e).runs.length = c.runs.length := by
  unfold notify
  cases c.callback with
  | none => rfl
  | some k => exact List.length_modify _ _ _

theorem runCount_notify (hcounts : c.CountsCallback) (e : Event) (k : Nat) :
    (c.notify e).runCount k = c.runCount k + if c.callback = some k then 1 else 0 := by
  cases hcallback : c.callback with
  | none => simp [runCount, notify, hcallback]
  | some installed =>
      have hlt : installed < c.runs.length := hcounts installed hcallback
      by_cases hk : installed = k
      · rw [← hk]
        simp [runCount, notify, hcallback, List.getElem?_eq_getElem hlt]
      · simp [runCount, notify, hcallback, hk]

theorem CountsCallback.notify (h : c.CountsCallback) (e : Event) :
    (c.notify e).CountsCallback := by
  intro k hk
  rw [length_runs_notify]
  exact h k hk

/-! ## Runs -/

theorem CountsCallback.perform (h : c.CountsCallback) (op : Operation) :
    (c.perform op).2.CountsCallback := by
  obtain ⟨r, -, -, hperform⟩ | ⟨r, next, -, -, hperform⟩ := c.perform_cases op
  · rw [hperform]
    exact h
  · have hgraph : CountsCallback { c with graph := next } := h
    rw [hperform]
    exact hgraph.notify op.event

theorem CountsCallback.onChannel {α : Type} (h : c.CountsCallback) (number : Nat)
    (f : Channel → α × Channel) : (c.onChannel number f).2.CountsCallback := by
  unfold Cache.onChannel
  cases c.channels[number]? <;> exact h

theorem CountsCallback.step (h : c.CountsCallback) (s : Step) : (c.step s).CountsCallback := by
  cases s with
  | perform op => exact h.perform op
  | setCallback =>
      intro k hk
      have hlast : c.runs.length = k := Option.some.inj hk
      simp [Cache.step, setCallback, ← hlast]
  | clearCallback =>
      intro k hk
      contradiction
  | subscribe => exact h
  | onChannel number a => exact h.onChannel number _

theorem CountsCallback.run (h : c.CountsCallback) (steps : List Step) :
    (c.run steps).CountsCallback := by
  induction steps generalizing c with
  | nil => exact h
  | cons s steps ih => exact ih (h.step s)

/-- Whatever has happened to a cache before: an operation that fails changes
nothing, neither the graph nor any count of runs nor any channel, and every
other operation runs the installed callback once, no other callback, and offers
one event to each channel, about what the operation is about.  So an operation
that changes the graph is always told about. -/
theorem perform_tells_once (steps : List Step) (op : Operation) :
    let c := empty.run steps
    let reply := (c.perform op).1
    let next := (c.perform op).2
    (reply.isFailure = true → next = c) ∧
      (reply.isFailure = false →
        next.callback = c.callback ∧ next.runs.length = c.runs.length ∧
          (∀ k, next.runCount k = c.runCount k + if c.callback = some k then 1 else 0) ∧
          next.channels = c.channels.map (·.offer op.event) ∧
          op.event.gid = op.gid ∧ op.event.kind? = op.kind?) ∧
      (next.graph ≠ c.graph → reply.isFailure = false) := by
  intro c reply next
  have hcounts : c.CountsCallback := countsCallback_empty.run steps
  obtain ⟨r, hfailure, -, hperform⟩ | ⟨r, g, heffect, -, hperform⟩ := c.perform_cases op
  · have hreply : reply = r := congrArg Prod.fst hperform
    have hnext : next = c := congrArg Prod.snd hperform
    rw [hreply, hnext, hfailure]
    refine ⟨fun _ => rfl, ?_, fun hgraph => absurd rfl hgraph⟩
    intro hsuccess
    contradiction
  · have hreply : reply = r := congrArg Prod.fst hperform
    have hnext : next = { c with graph := g }.notify op.event := congrArg Prod.snd hperform
    have hsuccess : r.isFailure = false := heffect.isFailure_eq_false
    have hgraph : CountsCallback { c with graph := g } := hcounts
    rw [hreply, hnext, hsuccess]
    refine ⟨?_, fun _ => ⟨rfl, length_runs_notify _ _, ?_, rfl, op.gid_event, op.kind?_event⟩,
      fun _ => rfl⟩
    · intro hfailure
      contradiction
    · intro k
      exact runCount_notify hgraph op.event k

end DiscoveryGraph.Cache
