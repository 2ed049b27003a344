import DiscoveryGraph.Proofs.Context.Calls
import Mathlib.Logic.Function.Basic

/-!
# Contexts on a bus

Contexts publish into outboxes and listen to inboxes, and a bus carries each
message from the outbox of its sender to the inbox of everybody, the sender
included.  The bus keeps the messages from one sender to one receiver in order
and loses none; how fast it carries them is not fixed, and messages of different
senders may overtake one another.

A call is cut in two where its snapshot is ready and not yet published.  Between
the halves everything else can go on, but no other call of the same context.
-/

namespace DiscoveryGraph

/-- The table with another value at one place. -/
def setAt {ι α : Type} [DecidableEq ι] (table : ι → ι → α) (i j : ι) (value : α) : ι → ι → α :=
  Function.update table i (Function.update (table i) j value)

theorem setAt_apply {ι α : Type} [DecidableEq ι] (table : ι → ι → α) (i j : ι) (value : α)
    (a b : ι) : setAt table i j value a b = if a = i ∧ b = j then value else table a b := by
  rw [setAt, Function.update_apply]
  by_cases ha : a = i
  · simp [ha, Function.update_apply]
  · simp [ha]

/-- A context and the snapshot that a call under way has still to publish. -/
structure Party where
  context : Context Outbox
  waiting : Option Snapshot

namespace Party

/-- A new context whose listener is running. -/
def start (gid : Gid) (enclave : String) (memory : Cdr.Memory) : Party where
  context :=
    (Context.new gid enclave (Outbox.publisher memory) .empty).startListener.2
  waiting := none

/-- Begins a call, unless one is under way.  A call that fails here is over. -/
def prepare (p : Party) (c : Call) : Party :=
  match p.waiting with
  | some _ => p
  | none => ⟨(p.context.prepare c).2, (p.context.prepare c).1.toOption⟩

/-- Ends the call under way, if there is one, and answers with its result. -/
def publish (p : Party) : Option (Except Error Unit) × Party :=
  match p.waiting with
  | none => (none, p)
  | some s => (some (p.context.publish s).1, ⟨(p.context.publish s).2, none⟩)

/-- The party with other messages in its outbox. -/
def withSamples (p : Party) (samples : List Sample) : Party :=
  { p with context.outbox.samples := samples }

/-- Puts a message into the inbox. -/
def send (p : Party) (sample : Sample) : Party :=
  { p with context := p.context.send sample }

/-- One step of the listener. -/
def listen (p : Party) : Party :=
  { p with context := p.context.listen }

/-- A call whose halves follow one another does what the call does. -/
theorem publish_prepare {p : Party} (hidle : p.waiting = none) (c : Call) :
    (p.prepare c).publish.2 = ⟨(p.context.call c).2, none⟩ ∧
      ((p.prepare c).publish.1 = some (.ok ()) ↔ (p.context.call c).1 = .ok ()) := by
  rw [Context.call_eq]
  simp only [prepare, hidle, publish]
  cases (p.context.prepare c).1 with
  | error e => simp [Context.publishPrepared, Except.toOption]
  | ok s => simp [Context.publishPrepared, Except.toOption]

end Party

/-- Parties and the messages under way between them. -/
structure Network (ι : Type) where
  parties : ι → Party
  /-- The messages from one party to another that the bus has taken and not yet
  delivered, the oldest first. -/
  links : ι → ι → List Sample

namespace Network

variable {ι : Type} [DecidableEq ι]

/-- What can happen next. -/
inductive Step (ι : Type)
  /-- A party begins a call. -/
  | prepare (i : ι) (c : Call)
  /-- A party ends the call under way. -/
  | publish (i : ι)
  /-- The bus takes the oldest message from an outbox, for everybody. -/
  | collect (i : ι)
  /-- The bus delivers the oldest message from one party to another. -/
  | deliver (i j : ι)
  /-- The listener of a party takes a step. -/
  | listen (j : ι)
  deriving DecidableEq

/-- New contexts whose listeners are running, and no message under way. -/
def start (gid : ι → Gid) (enclave : ι → String) (memory : ι → Cdr.Memory) : Network ι where
  parties i := .start (gid i) (enclave i) (memory i)
  links _ _ := []

/-- The network with another party in the place of one. -/
def withParty (net : Network ι) (i : ι) (p : Party) : Network ι :=
  { net with parties := Function.update net.parties i p }

/-- The network after a step. -/
def step (net : Network ι) : Step ι → Network ι
  | .prepare i c => net.withParty i ((net.parties i).prepare c)
  | .publish i => net.withParty i (net.parties i).publish.2
  | .collect i =>
      match (net.parties i).context.outbox.samples with
      | [] => net
      | sample :: rest =>
          { net.withParty i ((net.parties i).withSamples rest) with
            links := Function.update net.links i fun j => net.links i j ++ [sample] }
  | .deliver i j =>
      match net.links i j with
      | [] => net
      | sample :: rest =>
          { net.withParty j ((net.parties j).send sample) with
            links := setAt net.links i j rest }
  | .listen j => net.withParty j (net.parties j).listen

/-- The network after several steps. -/
def run (net : Network ι) (steps : List (Step ι)) : Network ι := steps.foldl step net

theorem parties_withParty (net : Network ι) (i : ι) (p : Party) (k : ι) :
    (net.withParty i p).parties k = if k = i then p else net.parties k :=
  Function.update_apply net.parties i p k

end Network

end DiscoveryGraph
