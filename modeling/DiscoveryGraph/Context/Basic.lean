import DiscoveryGraph.Context.Guard
import DiscoveryGraph.Context.Listener

/-!
# Participants at work

A `Context` is one participant: it owns a graph, publishes a snapshot of its
own nodes after every change of them, and applies the snapshots of others that
its listener receives. A guard is triggered by every change of the graph, by
means of a callback that is installed first. Whoever replaces that callback
disconnects the guard.

A call that changes the own nodes, or publishes them once more, has two halves:
it prepares a snapshot and then hands it to the publisher. A change is made in
the first half and is kept if publishing fails.
-/

namespace DiscoveryGraph

/-- What a context knows about its listener. -/
inductive ListenerSlot
  /-- There is none. -/
  | vacant
  /-- A listener is running. -/
  | running (l : Listener)
  /-- A listener has ended by itself and has not been cleared away. -/
  | ended
  deriving DecidableEq

/-- A call by which the nodes of a context are changed or published. -/
inductive Call
  | changeNode (name : NodeName) (action : NodeAction)
  | republish
  deriving DecidableEq

/-- A participant with its graph and its connections to others. -/
structure Context (state : Type) where
  /-- The identity of the participant. -/
  gid : Gid
  cache : Cache
  guard : Guard
  publisher : Publisher state
  /-- The state of the publisher. -/
  outbox : state
  slot : ListenerSlot
  /-- Whether the participant has ended. -/
  dropped : Bool

namespace Context

variable {state : Type}

/-- The number of the callback that triggers the guard. -/
def guardCallback : Nat := 0

/-- Acts on the graph and triggers the guard if its callback ran. -/
def onCache {α : Type} (ctx : Context state) (f : Cache → α × Cache) : α × Context state :=
  let (answer, cache) := f ctx.cache
  let ran := ctx.cache.runCount guardCallback < cache.runCount guardCallback
  (answer, { ctx with cache, guard := if ran then ctx.guard.trigger else ctx.guard })

/-- A participant in an enclave, entered in a graph of its own. -/
def new (gid : Gid) (enclave : String) (publisher : Publisher state) (outbox : state) :
    Context state :=
  let start : Context state :=
    { gid, publisher, outbox
      cache := Cache.empty.setCallback
      guard := .idle
      slot := .vacant
      dropped := false }
  (start.onCache fun c => c.commit (c.graph.addParticipant gid enclave)).2

/-- Hands a snapshot to the publisher. -/
def publish (ctx : Context state) (s : Snapshot) : Except Error Unit × Context state :=
  let (result, outbox) := ctx.publisher s ctx.outbox
  (result, { ctx with outbox })

/-- The first half of a call, which ends with the snapshot to publish. -/
def prepare (ctx : Context state) : Call → Except Error Snapshot × Context state
  | .changeNode name action =>
      ctx.onCache fun c => c.commit (c.graph.changeNode ctx.gid name action)
  | .republish =>
      match ctx.cache.graph.snapshot? ctx.gid with
      | none => (.error (.participantNotFound ctx.gid), ctx)
      | some s => (.ok s, ctx)

/-- The second half of a call, which publishes what the first one has prepared. -/
def publishPrepared (ctx : Context state) :
    Except Error Snapshot → Except Error Unit × Context state
  | .error e => (.error e, ctx)
  | .ok s => ctx.publish s

/-- Carries out a call. -/
def call (ctx : Context state) (c : Call) : Except Error Unit × Context state :=
  let (prepared, next) := ctx.prepare c
  next.publishPrepared prepared

/-- Acts on an own node and publishes the new snapshot. -/
def changeNode (ctx : Context state) (name : NodeName) (action : NodeAction) :
    Except Error Unit × Context state :=
  ctx.call (.changeNode name action)

/-- Publishes the present snapshot once more. -/
def republish (ctx : Context state) : Except Error Unit × Context state := ctx.call .republish

/-- Applies a message to the graph. -/
def handle (ctx : Context state) (sample : Sample) : Context state :=
  (ctx.onCache fun c => ((), c.learn ctx.gid sample)).2

/-- Applies a message to the graph, if there is one. -/
def handle? (ctx : Context state) : Option Sample → Context state
  | none => ctx
  | some sample => ctx.handle sample

/-- Whether a listener is running. -/
def isListening (ctx : Context state) : Bool :=
  match ctx.slot with
  | .running _ => true
  | _ => false

/-- Starts a listener on an inbox, unless one is running. -/
def startListenerOn (ctx : Context state) (inbox : Inbox) : Except Error Unit × Context state :=
  match ctx.slot with
  | .running _ => (.error (.invalidArgument .listenerRunning), ctx)
  | _ => (.ok (), { ctx with slot := .running (.start inbox) })

/-- Starts a listener with an empty inbox, unless one is running. -/
def startListener (ctx : Context state) : Except Error Unit × Context state :=
  ctx.startListenerOn .empty

/-- Changes the inbox of the listener, if one is running. -/
def onInbox (ctx : Context state) (f : Inbox → Inbox) : Context state :=
  match ctx.slot with
  | .running l => { ctx with slot := .running { l with inbox := f l.inbox } }
  | _ => ctx

/-- Sends a message to the listener. -/
def send (ctx : Context state) (sample : Sample) : Context state :=
  ctx.onInbox fun inbox =>
    if inbox.closed then inbox else { inbox with queue := inbox.queue ++ [sample] }

/-- Closes the inbox of the listener; what is in it can still be received. -/
def closeInbox (ctx : Context state) : Context state :=
  ctx.onInbox fun inbox => { inbox with closed := true }

/-- One step of the listener. -/
def listen (ctx : Context state) : Context state :=
  match ctx.slot with
  | .running l =>
      let (sample, next) := l.step
      let slot := match next with
        | some l => .running l
        | none => .ended
      ({ ctx with slot }).handle? sample
  | _ => ctx

/-- The number of steps after which a listener that is left alone has handled
its inbox and noticed whether it is closed. -/
def stepsToSettle (ctx : Context state) : Nat :=
  match ctx.slot with
  | .running l => 2 * l.inbox.queue.length + 3
  | _ => 0

/-- Lets the listener handle everything in its inbox. -/
def settle (ctx : Context state) : Context state :=
  Nat.repeat listen ctx.stepsToSettle ctx

/-- Stops the listener, if there is one. A message that it is just receiving is
still handled, and what is left in the inbox is lost. -/
def shutdown (ctx : Context state) : Context state :=
  match ctx.slot with
  | .running l => ({ ctx with slot := .vacant }).handle? l.lastSample?
  | _ => { ctx with slot := .vacant }

/-- Ends the participant: its listener is stopped and its graph loses its
callback. A participant ends only once, so a callback that is installed
afterwards stays. -/
def drop (ctx : Context state) : Context state :=
  if ctx.dropped then ctx
  else
    let ctx := ctx.shutdown
    { ctx with cache := ctx.cache.clearCallback, dropped := true }

end Context

end DiscoveryGraph
