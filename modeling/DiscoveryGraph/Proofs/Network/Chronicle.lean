import DiscoveryGraph.Proofs.Context.Messages
import DiscoveryGraph.Proofs.Network.Basic

/-!
# What an observer writes down

An observer marks each message, when it is published, with its sender and with
the nodes that the sender has at that moment, and follows the marks on their way
through outboxes, bus and inboxes to the listeners.  The marks are kept beside
the network, which does not depend on them.
-/

namespace DiscoveryGraph

/-- The mark of a message: who published it, and the own nodes of the sender at
that moment. -/
structure Mark (ι : Type) where
  sender : ι
  nodes : List Node
  deriving DecidableEq

/-- What is written down about one party. -/
structure Log (ι : Type) where
  /-- The messages that it has published. -/
  published : List (Mark ι)
  /-- The messages in its outbox. -/
  outgoing : List (Mark ι)
  /-- The messages in its inbox. -/
  arrived : List (Mark ι)
  /-- The messages that its listener has handled. -/
  handled : List (Mark ι)
  /-- The own nodes after the last call that succeeded. -/
  settled : Option (List Node)

namespace Log

variable {ι : Type}

def empty : Log ι := ⟨[], [], [], [], none⟩

/-- The messages that have reached the party. -/
def received (l : Log ι) : List (Mark ι) := l.handled ++ l.arrived

/-- A message was published if the outbox holds more messages than before. -/
def publish (i : ι) (p : Party) (l : Log ι) : Log ι :=
  let next := p.publish.2
  let sent : List (Mark ι) :=
    if p.context.outbox.samples.length < next.context.outbox.samples.length then
      [⟨i, next.context.ownNodes⟩]
    else []
  { l with
    published := l.published ++ sent
    outgoing := l.outgoing ++ sent
    settled := match p.publish.1 with
      | some (.ok ()) => some next.context.ownNodes
      | _ => l.settled }

/-- A message has been put into the inbox. -/
def arrive (mark? : Option (Mark ι)) (l : Log ι) : Log ι :=
  { l with arrived := l.arrived ++ mark?.toList }

/-- The oldest message of the inbox is handled if the listener has come to
that. -/
def listen (p : Party) (l : Log ι) : Log ι :=
  if p.context.upcoming?.isSome then
    { l with
      arrived := l.arrived.tail
      handled := l.handled ++ l.arrived.head?.toList }
  else l

/-- The handled messages of one sender. -/
def heard [DecidableEq ι] (l : Log ι) (i : ι) : List (Mark ι) :=
  l.handled.filter (·.sender = i)

end Log

/-- What is written down about all parties and about the bus. -/
structure Chronicle (ι : Type) where
  logs : ι → Log ι
  travelling : ι → ι → List (Mark ι)

namespace Chronicle

variable {ι : Type} [DecidableEq ι]

def empty : Chronicle ι := ⟨fun _ => .empty, fun _ _ => []⟩

/-- The chronicle with another log in the place of one. -/
def withLog (c : Chronicle ι) (i : ι) (l : Log ι) : Chronicle ι :=
  { c with logs := Function.update c.logs i l }

/-- The chronicle after a step of the network: a mark moves when the network
moves a message. -/
def record (net : Network ι) (c : Chronicle ι) : Network.Step ι → Chronicle ι
  | .prepare _ _ => c
  | .publish i => c.withLog i ((c.logs i).publish i (net.parties i))
  | .collect i =>
      match (net.parties i).context.outbox.samples with
      | [] => c
      | _ :: _ =>
          { c.withLog i { c.logs i with outgoing := (c.logs i).outgoing.tail } with
            travelling := Function.update c.travelling i fun j =>
              c.travelling i j ++ (c.logs i).outgoing.head?.toList }
  | .deliver i j =>
      match net.links i j with
      | [] => c
      | _ :: _ =>
          { c.withLog j ((c.logs j).arrive (c.travelling i j).head?) with
            travelling := setAt c.travelling i j (c.travelling i j).tail }
  | .listen j => c.withLog j ((c.logs j).listen (net.parties j))

theorem logs_withLog (c : Chronicle ι) (i : ι) (l : Log ι) (k : ι) :
    (c.withLog i l).logs k = if k = i then l else c.logs k :=
  Function.update_apply c.logs i l k

/-- What is the same in the new log is the same in every log. -/
theorem apply_logs_withLog {α : Type} (f : Log ι → α) {c : Chronicle ι} {i : ι} {l : Log ι}
    (hl : f l = f (c.logs i)) (k : ι) : f ((c.withLog i l).logs k) = f (c.logs k) := by
  rw [logs_withLog]
  by_cases hk : k = i
  · rw [if_pos hk, hl, hk]
  · rw [if_neg hk]

end Chronicle

/-- A network and what has been written down about it. -/
structure Observed (ι : Type) where
  net : Network ι
  chronicle : Chronicle ι

namespace Observed

variable {ι : Type} [DecidableEq ι]

def start (gid : ι → Gid) (enclave : ι → String) (memory : ι → Cdr.Memory) : Observed ι :=
  ⟨.start gid enclave memory, .empty⟩

def step (o : Observed ι) (s : Network.Step ι) : Observed ι :=
  ⟨o.net.step s, o.chronicle.record o.net s⟩

def run (o : Observed ι) (steps : List (Network.Step ι)) : Observed ι :=
  steps.foldl step o

/-- Observing a network does not disturb it. -/
theorem net_run (o : Observed ι) (steps : List (Network.Step ι)) :
    (o.run steps).net = o.net.run steps := by
  induction steps generalizing o with
  | nil => rfl
  | cons s steps ih => exact ih (o.step s)

variable (o : Observed ι)

/-- The context of a party. -/
def context (i : ι) : Context Outbox := (o.net.parties i).context

/-- The messages that a party has published. -/
def published (i : ι) : List (Mark ι) := (o.chronicle.logs i).published

/-- The messages of `i` that `j` has handled. -/
def heard (j i : ι) : List (Mark ι) := (o.chronicle.logs j).heard i

/-- The own nodes of a party after its last call that succeeded. -/
def settled (i : ι) : Option (List Node) := (o.chronicle.logs i).settled

end Observed

end DiscoveryGraph
