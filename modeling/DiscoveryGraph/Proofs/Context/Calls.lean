import DiscoveryGraph.Context.Basic
import DiscoveryGraph.Proofs.Graph.Entries

/-!
# What a context does to its graph

Of the two halves of a call the first one alone touches the graph, and there
only the own entry.  A message never touches the own entry, and of the other
entries only the one of its sender.
-/

namespace DiscoveryGraph

namespace Context

variable {state : Type} {ctx : Context state}

/-- What the graph of a context says about a participant. -/
def entry (ctx : Context state) (gid : Gid) : Option Participant :=
  ctx.cache.graph.participants[gid]?

/-- The nodes in the own entry of a context. -/
def ownNodes (ctx : Context state) : List Node :=
  (ctx.cache.graph.participantOrEmpty ctx.gid).nodes

theorem ownNodes_eq (ctx : Context state) :
    ctx.ownNodes = ((ctx.entry ctx.gid).getD .empty).nodes :=
  rfl

theorem entry_new (gid : Gid) (enclave : String) (publisher : Publisher state)
    (outbox : state) (other : Gid) :
    (new gid enclave publisher outbox).entry other =
      if other = gid then some ⟨enclave, []⟩ else none := by
  have hinsert : (new gid enclave publisher outbox).entry other =
      (Graph.empty.withParticipant gid ⟨enclave, []⟩).participants[other]? :=
    rfl
  have hempty : Graph.empty.participants[other]? = none := Std.ExtTreeMap.getElem?_empty
  rw [hinsert, Graph.getElem?_withParticipant, hempty]

/-! ## Calls -/

theorem call_eq (ctx : Context state) (c : Call) :
    ctx.call c = (ctx.prepare c).2.publishPrepared (ctx.prepare c).1 := rfl

theorem cache_prepare_changeNode (ctx : Context state) (name : NodeName) (action : NodeAction) :
    (ctx.prepare (.changeNode name action)).2.cache =
      (ctx.cache.perform (.changeNode ctx.gid name action)).2 := by
  simp only [prepare, onCache, Cache.perform, Graph.perform]
  cases ctx.cache.graph.changeNode ctx.gid name action <;> rfl

/-- Everything but the graph and the guard is the same in both contexts. -/
structure Frame (ctx next : Context state) : Prop where
  gid : next.gid = ctx.gid
  publisher : next.publisher = ctx.publisher
  outbox : next.outbox = ctx.outbox
  slot : next.slot = ctx.slot

theorem frame_onCache {α : Type} (ctx : Context state) (f : Cache → α × Cache) :
    Frame ctx (ctx.onCache f).2 :=
  ⟨rfl, rfl, rfl, rfl⟩

theorem frame_prepare (ctx : Context state) (c : Call) : Frame ctx (ctx.prepare c).2 := by
  cases c with
  | changeNode name action => exact frame_onCache ctx _
  | republish =>
      simp only [prepare]
      cases ctx.cache.graph.snapshot? ctx.gid <;> exact ⟨rfl, rfl, rfl, rfl⟩

/-- The first half of a call either fails and leaves all entries as they are, or
it sets the nodes of the own entry and answers with them. -/
theorem prepare_cases (ctx : Context state) (c : Call) :
    (∃ e, (ctx.prepare c).1 = .error e ∧
      ∀ gid, (ctx.prepare c).2.entry gid = ctx.entry gid) ∨
    ∃ p nodes, ctx.entry ctx.gid = some p ∧
      (ctx.prepare c).1 = .ok ⟨ctx.gid, nodes⟩ ∧
      ∀ gid, (ctx.prepare c).2.entry gid =
        if gid = ctx.gid then some { p with nodes } else ctx.entry gid := by
  cases c with
  | changeNode name action =>
      obtain ⟨e, h⟩ | ⟨p, nodes, hown, -, h⟩ :=
        ctx.cache.graph.changeNode_cases ctx.gid name action
      · refine .inl ⟨e, ?_, fun gid => ?_⟩
        · simp only [prepare, onCache, h, Cache.commit]
        · simp only [prepare, onCache, h, Cache.commit, entry]
      · refine .inr ⟨p, nodes, hown, ?_, fun gid => ?_⟩
        · simp only [prepare, onCache, h, Cache.commit]
        · simp only [prepare, onCache, h, Cache.commit, entry]
          exact Graph.getElem?_withParticipant _ _ _ _
  | republish =>
      simp only [prepare, Graph.snapshot?, entry]
      cases hown : ctx.cache.graph.participants[ctx.gid]? with
      | none => exact .inl ⟨_, rfl, fun gid => rfl⟩
      | some p =>
          refine .inr ⟨p, p.nodes, rfl, rfl, fun gid => ?_⟩
          by_cases hgid : gid = ctx.gid
          · rw [if_pos hgid, hgid]
            exact hown
          · rw [if_neg hgid]
            rfl

theorem entry_prepare_of_ne (c : Call) {gid : Gid} (hgid : gid ≠ ctx.gid) :
    (ctx.prepare c).2.entry gid = ctx.entry gid := by
  obtain ⟨_, -, hentry⟩ | ⟨_, _, -, -, hentry⟩ := ctx.prepare_cases c
  · exact hentry gid
  · rw [hentry gid, if_neg hgid]

/-- What a call publishes are the own nodes as its first half leaves them. -/
theorem eq_snapshot_of_prepare {c : Call} {s : Snapshot} (h : (ctx.prepare c).1 = .ok s) :
    s = ⟨ctx.gid, (ctx.prepare c).2.ownNodes⟩ := by
  obtain ⟨e, herror, -⟩ | ⟨p, nodes, -, hok, hentry⟩ := ctx.prepare_cases c
  · rw [herror] at h
    contradiction
  · have hnodes : (ctx.prepare c).2.ownNodes = nodes := by
      rw [ownNodes_eq, (frame_prepare ctx c).gid, hentry ctx.gid, if_pos rfl]
      rfl
    rw [hok] at h
    rw [hnodes]
    exact (Except.ok.inj h).symm

end Context

end DiscoveryGraph
