import DiscoveryGraph.Graph.Cache
import DiscoveryGraph.Proofs.Graph.Operations

/-!
# Runs of a cache

In a run of a cache operations on its graph alternate in any order with changes
of the callback, with subscriptions, and with what the receivers of its channels
do.  Only operations change the graph, and an operation that fails does nothing
at all.  Any other one is announced by a single event.
-/

namespace DiscoveryGraph

/-- What a receiver does with its channel: it takes the oldest event or all
events, or it ends. -/
inductive Channel.Act
  | receive
  | drain
  | drop
  deriving DecidableEq

/-- The events that the receiver gets, and the channel afterwards. -/
def Channel.act (c : Channel) : Act → List Event × Channel
  | .receive => (c.receive.1.toList, c.receive.2)
  | .drain => c.drain
  | .drop => ([], c.drop)

namespace Cache

inductive Step
  | perform (op : Operation)
  | setCallback
  | clearCallback
  | subscribe
  | onChannel (number : Nat) (a : Channel.Act)
  deriving DecidableEq

def step (c : Cache) : Step → Cache
  | .perform op => (c.perform op).2
  | .setCallback => c.setCallback
  | .clearCallback => c.clearCallback
  | .subscribe => c.subscribe.2
  | .onChannel number a => (c.onChannel number (·.act a)).2

def run (c : Cache) (steps : List Step) : Cache := steps.foldl step c

/-- The event that a step announces, if there is one. -/
def announces? (c : Cache) : Step → Option Event
  | .perform op => (c.graph.perform op).event?
  | _ => none

/-- The events announced in a run, the first one first. -/
def announced (c : Cache) : List Step → List Event
  | [] => []
  | s :: steps => (c.announces? s).toList ++ (c.step s).announced steps

/-! ## Operations -/

/-- An operation either fails and changes nothing, or it has its effect on the
graph and its event is announced. -/
theorem perform_cases (c : Cache) (op : Operation) :
    (∃ r, r.isFailure = true ∧ c.announces? (.perform op) = none ∧ c.perform op = (r, c)) ∨
    ∃ r next, c.graph.Effect op r next ∧ c.announces? (.perform op) = some op.event ∧
      c.perform op = (r, { c with graph := next }.notify op.event) := by
  obtain ⟨r, hfailure, h⟩ | ⟨r, next, heffect, h⟩ := c.graph.perform_cases op
  · refine .inl ⟨r, hfailure, ?_, ?_⟩
    · rw [announces?, h]
      rfl
    · rw [perform, h]
      rfl
  · refine .inr ⟨r, next, heffect, ?_, ?_⟩
    · rw [announces?, h]
      rfl
    · rw [perform, h]
      rfl

/-! ## The graph in a run -/

theorem graph_onChannel {α : Type} (c : Cache) (number : Nat) (f : Channel → α × Channel) :
    (c.onChannel number f).2.graph = c.graph := by
  unfold onChannel
  cases c.channels[number]? <;> rfl

theorem graph_perform (c : Cache) (op : Operation) :
    (c.perform op).2.graph = (c.graph.perform op).graph c.graph := by
  unfold perform
  cases c.graph.perform op <;> rfl

theorem graph_step (c : Cache) (s : Step) :
    (c.step s).graph =
      match s with
      | .perform op => (c.graph.perform op).graph c.graph
      | _ => c.graph := by
  cases s with
  | perform op => exact c.graph_perform op
  | setCallback => rfl
  | clearCallback => rfl
  | subscribe => rfl
  | onChannel number a => exact c.graph_onChannel number _

variable {c d : Cache}

/-- What a step does to the graph depends on the graph alone, not on the callback
and not on the channels. -/
theorem graph_step_congr (hgraph : c.graph = d.graph) (s : Step) :
    (c.step s).graph = (d.step s).graph := by
  rw [graph_step, graph_step, hgraph]

theorem announces?_congr (hgraph : c.graph = d.graph) (s : Step) :
    c.announces? s = d.announces? s := by
  cases s with
  | perform op => rw [announces?, announces?, hgraph]
  | _ => rfl

theorem graph_step_of_silent {s : Step} (h : c.announces? s = none) :
    (c.step s).graph = c.graph := by
  cases s with
  | perform op =>
      obtain ⟨r, -, -, hperform⟩ | ⟨r, next, -, hsome, -⟩ := c.perform_cases op
      · rw [step, hperform]
      · rw [hsome] at h
        contradiction
  | onChannel number a => exact c.graph_onChannel number _
  | _ => rfl

end Cache

end DiscoveryGraph
