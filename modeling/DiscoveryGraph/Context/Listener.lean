import DiscoveryGraph.Context.Outbox
import DiscoveryGraph.Graph.Cache

/-!
# Listening to other participants

A `Listener` takes messages from its inbox one at a time. Its loop has two
phases: before it receives, where it would notice a request to stop, and while
it receives. It ends by itself once its inbox is closed and empty. A message
that cannot be read, and one that carries the listener's own gid, change
nothing; any other message replaces the nodes of the participant it comes from.
-/

namespace DiscoveryGraph

/-- Messages on their way to a listener. -/
structure Inbox where
  /-- The messages not yet received, the oldest first. -/
  queue : List Sample
  /-- Whether no more messages can come. -/
  closed : Bool
  deriving DecidableEq

/-- An inbox without messages. -/
def Inbox.empty : Inbox := ⟨[], false⟩

/-- Where the loop of a listener stands. -/
inductive Phase
  | beforeReceiving
  | receiving
  deriving DecidableEq

/-- A running listener. -/
structure Listener where
  inbox : Inbox
  phase : Phase
  deriving DecidableEq

namespace Listener

/-- A listener that has just been started. -/
def start (inbox : Inbox) : Listener := ⟨inbox, .beforeReceiving⟩

/-- Receives a message, if there is one. -/
def receive (l : Listener) : Option Sample × Listener :=
  (l.inbox.queue.head?,
    ⟨{ l.inbox with queue := l.inbox.queue.tail }, .beforeReceiving⟩)

/-- One step of the loop: the message to handle, if there is one, and the
listener, unless it has ended. -/
def step (l : Listener) : Option Sample × Option Listener :=
  match l.phase with
  | .beforeReceiving => (none, some { l with phase := .receiving })
  | .receiving =>
      if l.inbox.closed ∧ l.inbox.queue.isEmpty then (none, none)
      else
        let (sample, next) := l.receive
        (sample, some next)

/-- What is still handled when the listener is stopped: the message that it is
just receiving. -/
def lastSample? (l : Listener) : Option Sample :=
  match l.phase with
  | .beforeReceiving => none
  | .receiving => l.inbox.queue.head?

end Listener

/-- Applies a message to the graph of the participant `own`. -/
def Cache.learn (own : Gid) (c : Cache) (sample : Sample) : Cache :=
  match Snapshot.decode sample with
  | .error _ => c
  | .ok s => if s.participant = own then c else (c.commit (c.graph.update s)).2

end DiscoveryGraph
