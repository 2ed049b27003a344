import DiscoveryGraph.Snapshot.Codec

/-!
# Handing over snapshots

A `Publisher` takes the snapshots of one participant. What it does with them is
kept in a state of its own, so that any publisher can be described, also one
that refuses. The publisher of this module writes each snapshot as a message
and puts it into an `Outbox`.
-/

namespace DiscoveryGraph

/-- Takes a snapshot in some state; the result tells whether it was
accepted. -/
abbrev Publisher (state : Type) := Snapshot → state → Except Error Unit × state

/-- A serialized message. -/
abbrev Sample := List UInt8

/-- Messages on their way from one participant. -/
structure Outbox where
  /-- The messages not yet taken, the oldest first. -/
  samples : List Sample
  /-- Whether anybody can still take messages. -/
  connected : Bool
  deriving DecidableEq

namespace Outbox

/-- An outbox without messages. -/
def empty : Outbox := ⟨[], true⟩

instance : Inhabited Outbox := ⟨empty⟩

/-- Puts the message of a snapshot into the outbox. A snapshot that cannot be
written, and an outbox that nobody reads, are refused. -/
def publisher (memory : Cdr.Memory) : Publisher Outbox := fun s o =>
  match s.encode memory with
  | .error e => (.error e, o)
  | .ok sample =>
      if o.connected then (.ok (), { o with samples := o.samples ++ [sample] })
      else (.error (.publish "discovery channel closed"), o)

/-- Takes all messages. -/
def takeAll (o : Outbox) : List Sample × Outbox := (o.samples, { o with samples := [] })

/-- The outbox that nobody reads any more. -/
def disconnect (_ : Outbox) : Outbox := ⟨[], false⟩

end Outbox

end DiscoveryGraph
