import DiscoveryGraph.Graph.Change

/-!
# Graphs that tell about their changes

A `Cache` is a graph together with those who want to know about its changes:
at most one callback, and any number of event channels. Each event runs the
callback once and is offered to every channel.

A channel holds a bounded number of events. An event that finds its channel
full, or its receiver gone, is lost and detaches the channel: nothing is
offered to it any more, and once its events are taken it appears disconnected.
So what a receiver gets is everything from its subscription on, or a beginning
of it.
-/

namespace DiscoveryGraph

/-- The number of events that a channel can hold. -/
def channelCapacity : Nat := 1024

/-- The events on their way to one receiver. -/
structure Channel where
  /-- The events not yet received, the oldest first. -/
  queue : List Event
  /-- Whether events are still offered. -/
  attached : Bool
  /-- Whether the receiver still exists. -/
  received : Bool
  deriving DecidableEq

namespace Channel

/-- A channel at the time of subscription. -/
def fresh : Channel := ⟨[], true, true⟩

/-- Offers an event to a channel. -/
def offer (c : Channel) (e : Event) : Channel :=
  if c.attached then
    if c.received ∧ c.queue.length < channelCapacity then
      { c with queue := c.queue ++ [e] }
    else { c with attached := false }
  else c

/-- The oldest event, if there is one, and the channel without it. -/
def receive (c : Channel) : Option Event × Channel :=
  (c.queue.head?, { c with queue := c.queue.tail })

/-- All events, and the channel without them. -/
def drain (c : Channel) : List Event × Channel := (c.queue, { c with queue := [] })

/-- The channel whose receiver is gone, with what it had not received. -/
def drop (c : Channel) : Channel := { c with queue := [], received := false }

/-- Whether a receiver that has taken all events will get no more. -/
def isDisconnected (c : Channel) : Bool := !c.attached

end Channel

/-- A graph with a callback and channels for its changes. -/
structure Cache where
  graph : Graph
  /-- The number of the installed callback, if there is one. -/
  callback : Option Nat
  /-- How often each callback has run, in the order of installation. -/
  runs : List Nat
  /-- The channels, in the order of subscription. -/
  channels : List Channel

namespace Cache

/-- An empty graph that nobody watches. -/
def empty : Cache := ⟨.empty, none, [], []⟩

instance : Inhabited Cache := ⟨empty⟩

/-- Installs a new callback in place of any other. -/
def setCallback (c : Cache) : Cache :=
  { c with callback := some c.runs.length, runs := c.runs ++ [0] }

/-- Removes the callback. -/
def clearCallback (c : Cache) : Cache := { c with callback := none }

/-- How often a callback has run. -/
def runCount (c : Cache) (callback : Nat) : Nat := c.runs[callback]?.getD 0

/-- Opens a channel; its number is the number of channels so far. -/
def subscribe (c : Cache) : Nat × Cache :=
  (c.channels.length, { c with channels := c.channels ++ [.fresh] })

/-- Acts on one channel. -/
def onChannel {α : Type} (c : Cache) (number : Nat) (f : Channel → α × Channel) :
    Option α × Cache :=
  match c.channels[number]? with
  | none => (none, c)
  | some channel =>
      let (answer, next) := f channel
      (some answer, { c with channels := c.channels.set number next })

/-- Runs the callback and offers an event to every channel. -/
def notify (c : Cache) (e : Event) : Cache :=
  { c with
    runs := match c.callback with
      | none => c.runs
      | some callback => c.runs.modify callback (· + 1)
    channels := c.channels.map (·.offer e) }

/-- Takes over the outcome of an operation and tells about it. -/
def commit {reply : Type} (c : Cache) : Change reply → reply × Cache
  | .unchanged r => (r, c)
  | .changed r graph event => (r, { c with graph }.notify event)

/-- Carries out an operation. -/
def perform (c : Cache) (op : Operation) : Reply × Cache := c.commit (c.graph.perform op)

/-- The sizes of the three maps and whether a callback is installed, for
diagnostics. -/
def summary (c : Cache) : String :=
  "GraphCache \x7b data_writers: " ++ Nat.repr c.graph.writers.size ++
    ", data_readers: " ++ Nat.repr c.graph.readers.size ++
    ", participants: " ++ Nat.repr c.graph.participants.size ++
    ", has_on_change_callback: " ++ (if c.callback.isSome then "true" else "false") ++ " \x7d"

end Cache

end DiscoveryGraph
