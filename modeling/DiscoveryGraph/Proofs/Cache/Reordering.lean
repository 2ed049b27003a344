import DiscoveryGraph.Graph.Query
import DiscoveryGraph.Proofs.Cache.Histories
import DiscoveryGraph.Proofs.Graph.Independence

/-!
# The order of operations on a cache

Discovery brings what it finds in no particular order.  Two neighbouring operations that
are independent can be exchanged: the replies, the graph and the counts of callback runs
stay the same.  So for a list of operations only the order of those about the same entry
matters.  The channels are left out here, since they do show the order of the events.
-/

namespace DiscoveryGraph

namespace Operation

variable {a b : Operation} {ops others : List Operation}

/-- In both lists the operations about any one entry are the same, in the same order. -/
def Reordering (ops others : List Operation) : Prop :=
  ∀ kind? gid, ops.filter (·.About kind? gid) = others.filter (·.About kind? gid)

theorem filter_about_cons (op : Operation) (ops : List Operation) (kind? : Option EndpointKind)
    (gid : Gid) :
    (op :: ops).filter (·.About kind? gid) =
      if op.About kind? gid then op :: ops.filter (·.About kind? gid)
      else ops.filter (·.About kind? gid) := by
  simp only [List.filter_cons, decide_eq_true_eq]

theorem Reordering.eq_nil (h : Reordering [] others) : others = [] := by
  rw [List.eq_nil_iff_forall_not_mem]
  intro op hop
  have hmem : op ∈ others.filter (·.About op.kind? op.gid) :=
    List.mem_filter.mpr ⟨hop, decide_eq_true ⟨rfl, rfl⟩⟩
  rw [← h op.kind? op.gid] at hmem
  contradiction

/-- In any reordering the first operation stands behind independent ones only. -/
theorem Reordering.exists_split (h : Reordering (a :: ops) others) :
    ∃ before after, others = before ++ a :: after ∧ (∀ b ∈ before, a.Independent b) ∧
      Reordering ops (before ++ after) := by
  have hfirst : others.filter (·.About a.kind? a.gid) =
      a :: ops.filter (·.About a.kind? a.gid) := by
    rw [← h, filter_about_cons, if_pos ⟨rfl, rfl⟩]
  obtain ⟨before, after, rfl, hbefore, -, -⟩ := List.filter_eq_cons_iff.mp hfirst
  refine ⟨before, after, rfl, ?_, ?_⟩
  · intro b hb
    have hb' : ¬ b.About a.kind? a.gid := fun habout => hbefore b hb (decide_eq_true habout)
    exact (not_about_iff_independent.mp hb').symm
  · intro kind? gid
    have hkey := h kind? gid
    rw [List.filter_append, filter_about_cons, filter_about_cons] at hkey
    rw [List.filter_append]
    by_cases ha : a.About kind? gid
    · obtain ⟨rfl, rfl⟩ := ha
      have hnone : before.filter (·.About a.kind? a.gid) = [] :=
        List.filter_eq_nil_iff.mpr hbefore
      rw [if_pos ⟨rfl, rfl⟩, if_pos ⟨rfl, rfl⟩, hnone] at hkey
      rw [hnone]
      exact (List.cons.inj hkey).2
    · rw [if_neg ha, if_neg ha] at hkey
      exact hkey

theorem reordering_pair (h : a.Independent b) : Reordering [a, b] [b, a] := by
  intro kind? gid
  simp only [filter_about_cons]
  rcases h.not_about_or kind? gid with ha | hb
  · rw [if_neg ha, if_neg ha]
  · rw [if_neg hb, if_neg hb]

end Operation

namespace Cache

variable {c d e : Cache} {a b op : Operation} {ops others before after : List Operation}

/-- The counts of callback runs when the installed callback has run once more. -/
def counted (callback : Option Nat) (runs : List Nat) : List Nat :=
  match callback with
  | none => runs
  | some k => runs.modify k (· + 1)

theorem callback_perform (c : Cache) (op : Operation) :
    (c.perform op).2.callback = c.callback := by
  unfold perform
  cases c.graph.perform op <;> rfl

theorem runs_perform (c : Cache) (op : Operation) :
    (c.perform op).2.runs =
      if (c.perform op).1.isFailure = true then c.runs else counted c.callback c.runs := by
  obtain ⟨r, hfailure, -, hperform⟩ | ⟨r, next, heffect, -, hperform⟩ := c.perform_cases op
  · rw [hperform]
    exact (if_pos hfailure).symm
  · have hsuccess : ¬ r.isFailure = true := by simp [heffect.isFailure_eq_false]
    rw [hperform]
    exact (if_neg hsuccess).symm

/-- The caches differ in their channels at most. -/
structure Alike (c d : Cache) : Prop where
  graph_eq : c.graph = d.graph
  callback_eq : c.callback = d.callback
  runs_eq : c.runs = d.runs

namespace Alike

theorem refl (c : Cache) : Alike c c := ⟨rfl, rfl, rfl⟩

theorem symm (h : Alike c d) : Alike d c where
  graph_eq := h.graph_eq.symm
  callback_eq := h.callback_eq.symm
  runs_eq := h.runs_eq.symm

theorem trans (hcd : Alike c d) (hde : Alike d e) : Alike c e where
  graph_eq := hcd.graph_eq.trans hde.graph_eq
  callback_eq := hcd.callback_eq.trans hde.callback_eq
  runs_eq := hcd.runs_eq.trans hde.runs_eq

theorem perform (h : Alike c d) (op : Operation) : Alike (c.perform op).2 (d.perform op).2 where
  graph_eq := by rw [graph_perform, graph_perform, h.graph_eq]
  callback_eq := by rw [callback_perform, callback_perform, h.callback_eq]
  runs_eq := by
    rw [runs_perform, runs_perform, fst_perform, fst_perform, h.graph_eq, h.callback_eq, h.runs_eq]

end Alike

/-! ## Two operations -/

theorem fst_perform_of_independent (h : a.Independent b) (c : Cache) :
    ((c.perform a).2.perform b).1 = (c.perform b).1 := by
  rw [fst_perform, graph_perform, fst_perform]
  exact Graph.reply_after_of_independent h c.graph

theorem alike_perform_comm (h : a.Independent b) (c : Cache) :
    Alike ((c.perform a).2.perform b).2 ((c.perform b).2.perform a).2 where
  graph_eq := by
    simp only [graph_perform]
    exact Graph.after_comm_of_independent h c.graph
  callback_eq := by simp only [callback_perform]
  runs_eq := by
    -- Each of the two counts a run or not, and whether it does is not up to the other.
    rw [runs_perform, runs_perform (c.perform b).2, fst_perform_of_independent h,
      fst_perform_of_independent h.symm, runs_perform, runs_perform, callback_perform,
      callback_perform]
    by_cases ha : (c.perform a).1.isFailure = true
    · rw [if_pos ha, if_pos ha]
    · rw [if_neg ha, if_neg ha]
      by_cases hb : (c.perform b).1.isFailure = true
      · rw [if_pos hb, if_pos hb]
      · rw [if_neg hb, if_neg hb]

/-! ## Any number of operations -/

/-- The cache after several operations. -/
def performAll (c : Cache) (ops : List Operation) : Cache :=
  ops.foldl (fun c op => (c.perform op).2) c

theorem Alike.performAll (h : Alike c d) (ops : List Operation) :
    Alike (c.performAll ops) (d.performAll ops) := by
  induction ops generalizing c d with
  | nil => exact h
  | cons op ops ih => exact ih (h.perform op)

theorem alike_performAll_of_independent (hbefore : ∀ b ∈ before, a.Independent b)
    (after : List Operation) (c : Cache) :
    Alike (c.performAll (before ++ a :: after)) (c.performAll (a :: (before ++ after))) := by
  induction before generalizing c with
  | nil => exact .refl _
  | cons b before ih =>
      have hb : a.Independent b := hbefore b List.mem_cons_self
      have hrest : ∀ b ∈ before, a.Independent b :=
        fun other hother => hbefore other (List.mem_cons_of_mem b hother)
      have hmoved : Alike ((c.perform b).2.performAll (before ++ a :: after))
          (((c.perform b).2.perform a).2.performAll (before ++ after)) :=
        ih hrest (c.perform b).2
      exact hmoved.trans ((alike_perform_comm hb.symm c).performAll (before ++ after))

theorem alike_performAll_of_reordering (h : Operation.Reordering ops others) (c : Cache) :
    Alike (c.performAll ops) (c.performAll others) := by
  induction ops generalizing others c with
  | nil =>
      rw [h.eq_nil]
      exact .refl _
  | cons a ops ih =>
      obtain ⟨before, after, rfl, hbefore, hrest⟩ := h.exists_split
      have hfront := alike_performAll_of_independent hbefore after c
      exact (ih hrest (c.perform a).2).trans hfront.symm

/-- Independent operations commute on every cache: each gives the reply that it gives
without the other, an error or `false` included, and the graph and the counts of callback
runs do not show which was first.  So a reordering of any number of operations leads to
the same graph, and every question about topics, nodes or types has the same answer. -/
theorem independent_operations_commute (c : Cache) :
    (∀ a b : Operation, a.Independent b →
      ((c.perform a).2.perform b).1 = (c.perform b).1 ∧
        ((c.perform b).2.perform a).1 = (c.perform a).1 ∧
        Alike ((c.perform a).2.perform b).2 ((c.perform b).2.perform a).2) ∧
      ∀ ops others, Operation.Reordering ops others →
        let g := (c.performAll ops).graph
        let h := (c.performAll others).graph
        Alike (c.performAll ops) (c.performAll others) ∧
          (∀ kind topic f, g.endpointsOn kind topic f = h.endpointsOn kind topic f) ∧
          (∀ kind topic, g.countOn kind topic = h.countOn kind topic) ∧
          (∀ d, g.topics d = h.topics d) ∧
          (∀ kind name d, g.topicsOf kind name d = h.topicsOf kind name d) ∧
          g.nodeCount = h.nodeCount ∧
          ∀ enclaves, g.nodeListing enclaves = h.nodeListing enclaves := by
  refine ⟨?_, ?_⟩
  · intro a b hab
    exact ⟨fst_perform_of_independent hab c, fst_perform_of_independent hab.symm c,
      alike_perform_comm hab c⟩
  · intro ops others horder g h
    have halike := alike_performAll_of_reordering horder c
    have hgraph : g = h := halike.graph_eq
    rw [hgraph]
    exact ⟨halike, by simp⟩

/-- A writer that is found before anything is known about its participant. -/
def earlyWriter : Operation :=
  .addEntity .publisher (.padded [1])
    ⟨"chatter", "String", .unset, .padded [2], .standard⟩

/-- The nodes of that participant; the only one owns the writer. -/
def lateParticipant : Operation :=
  .update ⟨.padded [2], [⟨⟨"talker", "/"⟩, [], [.padded [1]]⟩]⟩

theorem endpointsOn_earlyWriter :
    earlyWriter.Independent lateParticipant ∧
      Operation.Reordering [earlyWriter, lateParticipant] [lateParticipant, earlyWriter] ∧
      ((empty.perform lateParticipant).2.perform earlyWriter).1 =
        (empty.perform earlyWriter).1 ∧
      (empty.performAll [earlyWriter, lateParticipant]).graph.endpointsOn .publisher "chatter" id =
        (empty.performAll [lateParticipant, earlyWriter]).graph.endpointsOn .publisher
          "chatter" id := by
  obtain ⟨hpairs, hlists⟩ := independent_operations_commute empty
  have hindependent : earlyWriter.Independent lateParticipant := by decide
  have horder := Operation.reordering_pair hindependent
  obtain ⟨-, hwriter, -⟩ := hpairs earlyWriter lateParticipant hindependent
  obtain ⟨-, hendpoints, -⟩ := hlists _ _ horder
  exact ⟨hindependent, horder, hwriter, hendpoints .publisher "chatter" id⟩

end Cache

end DiscoveryGraph
