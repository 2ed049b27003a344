import DiscoveryGraph.Qos.Profile
import DiscoveryGraph.Qos.Reason

/-!
# Whether an offer serves a request

An offer conflicts with a request when it is weaker in some policy; every
conflict is reported. Only where nothing conflicts are doubts reported, at most
one for each of reliability, durability and liveliness: a policy that is left
open on one side, while the other side depends on it.
-/

namespace DiscoveryGraph

/-- The outcome of comparing an offer with a request. -/
inductive Verdict
  /-- The endpoints communicate. -/
  | ok
  /-- Whether the endpoints communicate depends on settings left open. -/
  | warning
  /-- The endpoints do not communicate. -/
  | error
  deriving DecidableEq, Inhabited, Repr

/-- A respect in which an offer is weaker than a request. -/
inductive Conflict
  | bestEffortForReliable
  | volatileForTransientLocal
  | deadlineNotOffered
  | deadlineTooLong
  | automaticForManual
  | leaseNotOffered
  | leaseTooLong
  deriving DecidableEq, Repr

namespace Conflict

/-- All conflicts, in the order in which they are reported. -/
def all : List Conflict :=
  [bestEffortForReliable, volatileForTransientLocal, deadlineNotOffered,
    deadlineTooLong, automaticForManual, leaseNotOffered, leaseTooLong]

/-- A duration is requested and none is offered. -/
def notOffered (offered requested : Duration) : Bool :=
  offered = .unspecified && requested ≠ .unspecified

/-- A duration is requested and a longer one is offered. -/
def tooLong (offered requested : Duration) : Bool :=
  offered ≠ .unspecified && requested ≠ .unspecified && requested < offered

/-- Whether a conflict exists between an offer and a request. -/
def arises (offer request : Profile) : Conflict → Bool
  | bestEffortForReliable =>
      offer.reliability = .bestEffort && request.reliability = .reliable
  | volatileForTransientLocal =>
      offer.durability = .volatile && request.durability = .transientLocal
  | deadlineNotOffered => notOffered offer.deadline request.deadline
  | deadlineTooLong => tooLong offer.deadline request.deadline
  | automaticForManual =>
      offer.liveliness = .automatic && request.liveliness = .manualByTopic
  | leaseNotOffered => notOffered offer.lease request.lease
  | leaseTooLong => tooLong offer.lease request.lease

/-- The entry that reports a conflict. -/
def entry : Conflict → String
  | bestEffortForReliable =>
      "ERROR: Best effort publisher and reliable subscription;"
  | volatileForTransientLocal =>
      "ERROR: Volatile publisher and transient local subscription;"
  | deadlineNotOffered =>
      "ERROR: Subscription has a deadline, but publisher does not;"
  | deadlineTooLong =>
      "ERROR: Subscription deadline is less than publisher deadline;"
  | automaticForManual =>
      "ERROR: Publisher's liveliness is automatic and subscription's is manual by topic;"
  | leaseNotOffered =>
      "ERROR: Subscription has a liveliness lease duration, but publisher does not;"
  | leaseTooLong =>
      "ERROR: Subscription liveliness lease duration is less than publisher;"

end Conflict

/-- The conflicts between an offer and a request. -/
def conflicts (offer request : Profile) : List Conflict :=
  Conflict.all.filter (Conflict.arises offer request)

/-- A respect in which it stays open whether an offer serves a request. -/
inductive Doubt
  | reliabilityOpen (offered requested : Reliability)
  | reliableRequested (offered : Reliability)
  | bestEffortOffered (requested : Reliability)
  | durabilityOpen (offered requested : Durability)
  | transientLocalRequested (offered : Durability)
  | volatileOffered (requested : Durability)
  | livelinessOpen (offered requested : Liveliness)
  | manualRequested (offered : Liveliness)
  | automaticOffered (requested : Liveliness)
  deriving DecidableEq, Repr

namespace Doubt

/-- A policy as entries name it. -/
def named (name? : Option String) : String := name?.getD "unknown"

/-- What stays open about reliability. -/
def ofReliability? (offered requested : Reliability) : Option Doubt :=
  if offered.isOpen && requested.isOpen then
    some (reliabilityOpen offered requested)
  else if offered.isOpen && requested = .reliable then
    some (reliableRequested offered)
  else if offered = .bestEffort && requested.isOpen then
    some (bestEffortOffered requested)
  else none

/-- What stays open about durability. -/
def ofDurability? (offered requested : Durability) : Option Doubt :=
  if offered.isOpen && requested.isOpen then
    some (durabilityOpen offered requested)
  else if offered.isOpen && requested = .transientLocal then
    some (transientLocalRequested offered)
  else if offered = .volatile && requested.isOpen then
    some (volatileOffered requested)
  else none

/-- What stays open about liveliness. -/
def ofLiveliness? (offered requested : Liveliness) : Option Doubt :=
  if offered.isOpen && requested.isOpen then
    some (livelinessOpen offered requested)
  else if offered.isOpen && requested = .manualByTopic then
    some (manualRequested offered)
  else if offered = .automatic && requested.isOpen then
    some (automaticOffered requested)
  else none

/-- The texts of which the entry that reports a doubt is made, in order. -/
def pieces : Doubt → List String
  | reliabilityOpen offered requested =>
      ["WARNING: Publisher reliability is ", named offered.name?,
        " and subscription reliability is ", named requested.name?, ";"]
  | reliableRequested offered =>
      ["WARNING: Reliable subscription, but publisher is ", named offered.name?, ";"]
  | bestEffortOffered requested =>
      ["WARNING: Best effort publisher, but subscription is ", named requested.name?, ";"]
  | durabilityOpen offered requested =>
      ["WARNING: Publisher durabilty is ", named offered.name?,
        " and subscription durability is ", named requested.name?, ";"]
  | transientLocalRequested offered =>
      ["WARNING: Transient local subscription, but publisher is ", named offered.name?, ";"]
  | volatileOffered requested =>
      ["WARNING: Volatile publisher, but subscription is ", named requested.name?, ";"]
  | livelinessOpen offered requested =>
      ["WARNING: Publisher liveliness is ", named offered.name?,
        " and subscription liveliness is ", named requested.name?, ";"]
  | manualRequested offered =>
      ["WARNING: Subscription's liveliness is manual by topic, but publisher's is ",
        named offered.name?, ";"]
  | automaticOffered requested =>
      ["WARNING: Publisher's liveliness is automatic, but subscription's is ",
        named requested.name?, ";"]

/-- The entry that reports a doubt. -/
def entry (d : Doubt) : String := String.join d.pieces

end Doubt

/-- What stays open between an offer and a request. -/
def doubts (offer request : Profile) : List Doubt :=
  (Doubt.ofReliability? offer.reliability request.reliability).toList ++
    (Doubt.ofDurability? offer.durability request.durability).toList ++
    (Doubt.ofLiveliness? offer.liveliness request.liveliness).toList

/-- Whether an offer serves a request. -/
def verdict (offer request : Profile) : Verdict :=
  if (conflicts offer request).isEmpty then
    if (doubts offer request).isEmpty then .ok else .warning
  else .error

/-- The entries that explain the verdict: all conflicts or, without any
conflict, all doubts. -/
def entries (offer request : Profile) : List String :=
  if (conflicts offer request).isEmpty then (doubts offer request).map Doubt.entry
  else (conflicts offer request).map Conflict.entry

/-- The texts that make up the entries, in the order in which they are written: the entry
of a conflict is one text, that of a doubt is written in pieces. -/
def pieces (offer request : Profile) : List String :=
  if (conflicts offer request).isEmpty then (doubts offer request).flatMap Doubt.pieces
  else (conflicts offer request).map Conflict.entry

/-- A verdict and the text that explains it. -/
structure CompatibilityReport where
  verdict : Verdict
  reason : String
  deriving DecidableEq, Repr

/-- Compares an offer with a request and explains the verdict in full. There is
always a report, since the only errors would be those of writing it. -/
def checkCompatible (offer request : Profile) : CompatibilityReport where
  verdict := verdict offer request
  reason := String.join (entries offer request)

/-- Compares an offer with a request and writes the explanation into a buffer,
piece by piece. Writing into a buffer cannot fail, so neither can this. -/
def checkInto (offer request : Profile) (buffer : Reason) : Verdict × Reason :=
  (verdict offer request, buffer.writeAll (pieces offer request))

/-- Compares an offer with a request and explains the verdict in a buffer of
`capacity` bytes. -/
def checkBounded (offer request : Profile) (capacity : Nat) : CompatibilityReport :=
  let (verdict, buffer) := checkInto offer request (.ofCapacity capacity)
  ⟨verdict, buffer.text⟩

end DiscoveryGraph
