import DiscoveryGraph.Proofs.Cache.Runs
import DiscoveryGraph.Proofs.Graph.Entries
import Mathlib.Data.List.DropRight
import Mathlib.Data.List.Induction

/-!
# Histories of a cache

The history of a run lists its operations with the replies to them.  It determines
the graph that the run leads to, and for an entity the part after its last removal is
enough: the entity is there exactly if that part adds it, and it is as it was added
first.
-/

namespace DiscoveryGraph

/-- An operation and the reply to it. -/
structure Exchange where
  op : Operation
  reply : Reply

/-- What comes after the last element with a property, or the whole list if there is
none. -/
def afterLast {α : Type} (p : α → Bool) (l : List α) : List α := l.rtakeWhile (!p ·)

theorem afterLast_concat {α : Type} (p : α → Bool) (l : List α) (x : α) :
    afterLast p (l ++ [x]) = if p x = true then [] else afterLast p l ++ [x] := by
  rw [afterLast, List.rtakeWhile_concat]
  cases p x <;> rfl

/-- The entity of a kind under a gid that the operation adds. -/
def Operation.entered? (kind : EndpointKind) (gid : Gid) : Operation → Option Entity
  | .addEntity k i e => if k = kind ∧ i = gid then some e else none
  | _ => none

theorem Operation.entered?_eq_some_iff {kind : EndpointKind} {gid : Gid} {op : Operation}
    {e : Entity} : op.entered? kind gid = some e ↔ op = .addEntity kind gid e := by
  cases op with
  | addEntity k i other =>
      simp only [entered?, Option.ite_none_right_eq_some, Option.some_inj, addEntity.injEq,
        and_assoc]
  | _ => simp [entered?]

/-- Unless the operation removes the entity, it keeps the entity that is there, and
otherwise adds its own. -/
theorem Operation.onEntity_eq_or {kind : EndpointKind} {gid : Gid} {op : Operation}
    (hop : op ≠ .removeEntity kind gid) (e? : Option Entity) :
    op.onEntity kind gid e? = e?.or (op.entered? kind gid) := by
  cases op with
  | addEntity k i e =>
      by_cases hkey : k = kind ∧ i = gid <;> simp [onEntity, entered?, hkey]
  | removeEntity k i =>
      have hkey : ¬ (k = kind ∧ i = gid) := by
        rintro ⟨rfl, rfl⟩
        exact hop rfl
      simp [onEntity, entered?, hkey]
  | _ => simp [onEntity, entered?]

namespace Cache

/-- The kind of endpoint that a step is about, if it is about an endpoint. -/
def Step.kind? : Step → Option EndpointKind
  | perform op => op.kind?
  | _ => none

def exchange? (c : Cache) : Step → Option Exchange
  | .perform op => some ⟨op, (c.perform op).1⟩
  | _ => none

/-- The operations of a run with the replies to them, the first one first. -/
def exchanges (c : Cache) : List Step → List Exchange
  | [] => []
  | s :: steps => (c.exchange? s).toList ++ (c.step s).exchanges steps

theorem run_concat (c : Cache) (steps : List Step) (s : Step) :
    c.run (steps ++ [s]) = (c.run steps).step s := by
  simp [run]

theorem exchanges_concat (c : Cache) (steps : List Step) (s : Step) :
    c.exchanges (steps ++ [s]) = c.exchanges steps ++ ((c.run steps).exchange? s).toList := by
  induction steps generalizing c with
  | nil => simp [exchanges, run]
  | cons first steps ih =>
      rw [List.cons_append, exchanges, exchanges, ih, List.append_assoc]
      rfl

theorem fst_perform (c : Cache) (op : Operation) :
    (c.perform op).1 = (c.graph.perform op).reply := by
  unfold perform
  cases c.graph.perform op <;> rfl

/-- What holds of the empty graph and its empty history, and is kept whenever an
operation is carried out and added to the history, holds after every run. -/
theorem history_induction {P : List Exchange → Graph → Prop} (hempty : P [] .empty)
    (hperform : ∀ history g op, P history g →
      P (history ++ [⟨op, (g.perform op).reply⟩]) (g.after op)) (steps : List Step) :
    P (empty.exchanges steps) (empty.run steps).graph := by
  induction steps using List.reverseRecOn with
  | nil => exact hempty
  | append_singleton steps s ih =>
      -- Only operations add to the history, and only they change the graph.
      rw [exchanges_concat, run_concat, graph_step]
      cases s with
      | perform op =>
          rw [exchange?, fst_perform]
          exact hperform _ _ op ih
      | _ => simpa [exchange?] using ih

/-! ## Entities -/

theorem getElem?_entities_run (steps : List Step) (kind : EndpointKind) (gid : Gid) :
    ((empty.run steps).graph.entities kind)[gid]? =
      (afterLast (·.op = .removeEntity kind gid) (empty.exchanges steps)).findSome?
        (·.op.entered? kind gid) := by
  refine history_induction (P := fun history g => (g.entities kind)[gid]? =
    (afterLast (·.op = .removeEntity kind gid) history).findSome? (·.op.entered? kind gid))
    ?_ ?_ steps
  · cases kind <;> exact Std.ExtTreeMap.getElem?_empty
  · intro history g op ih
    rw [Graph.getElem?_entities_after, afterLast_concat, ih]
    by_cases hop : op = .removeEntity kind gid
    · rw [hop]
      simp [Operation.onEntity]
    · rw [Operation.onEntity_eq_or hop]
      simp [hop, List.findSome?_append]

/-- After every run: an entity is there exactly if it was added after it was last
removed, and then it is as it was added first.  An entity can be added exactly if it is
not there, and removed exactly if it is; the reply says so.  Entities of one kind are
changed by no step that is about the other kind, about a participant or about something
else. -/
theorem entity_of_history (steps : List Step) (kind : EndpointKind) (gid : Gid) :
    let c := empty.run steps
    let recent := afterLast (·.op = .removeEntity kind gid) (empty.exchanges steps)
    (gid ∈ c.graph.entities kind ↔ ∃ x ∈ recent, ∃ e, x.op = .addEntity kind gid e) ∧
      (∀ e, (c.graph.entities kind)[gid]? = some e ↔
        ∃ before x after, recent = before ++ x :: after ∧ x.op = .addEntity kind gid e ∧
          ∀ y ∈ before, ∀ other, y.op ≠ .addEntity kind gid other) ∧
      (∀ e, (c.perform (.addEntity kind gid e)).1 =
        .flag (decide (gid ∉ c.graph.entities kind))) ∧
      (c.perform (.removeEntity kind gid)).1 = .flag (decide (gid ∈ c.graph.entities kind)) ∧
      ∀ s : Step, s.kind? ≠ some kind →
        (c.step s).graph.entities kind = c.graph.entities kind := by
  intro c recent
  have hentity : (c.graph.entities kind)[gid]? = recent.findSome? (·.op.entered? kind gid) :=
    getElem?_entities_run steps kind gid
  refine ⟨?_, ?_, ?_, ?_, ?_⟩
  · rw [← Std.ExtTreeMap.isSome_getElem?_iff_mem, hentity, List.findSome?_isSome_iff]
    simp only [Option.isSome_iff_exists, Operation.entered?_eq_some_iff]
  · intro e
    rw [hentity, List.findSome?_eq_some_iff]
    simp only [Operation.entered?_eq_some_iff, Option.eq_none_iff_forall_ne_some, ne_eq]
  · intro e
    rw [fst_perform]
    exact c.graph.reply_addEntity kind gid e
  · rw [fst_perform]
    exact c.graph.reply_removeEntity kind gid
  · intro s hs
    rw [graph_step]
    cases s with
    | perform op => exact c.graph.entities_after_of_ne kind hs
    | _ => rfl

end Cache

end DiscoveryGraph
