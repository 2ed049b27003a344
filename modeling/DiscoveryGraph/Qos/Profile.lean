import DiscoveryGraph.Duration
import DiscoveryGraph.Qos.Policy

/-!
# Quality of service profiles

A `Profile` holds all settings of one endpoint. A publisher's profile is an
offer and a subscription's profile is a request; the settings are stored as
given and are not validated.
-/

namespace DiscoveryGraph

/-- The quality of service settings of an endpoint. -/
structure Profile where
  history : History
  /-- The number of samples that `History.keepLast` keeps. -/
  depth : UInt64
  reliability : Reliability
  durability : Durability
  /-- The longest time between two samples. -/
  deadline : Duration
  /-- The time after which a sample is stale. -/
  lifespan : Duration
  liveliness : Liveliness
  /-- The longest time between two signs of life. -/
  lease : Duration
  /-- Whether topic names are taken without the usual decoration. -/
  plainNames : Bool
  deriving DecidableEq, Repr

namespace Profile

/-- The depth that leaves the choice to the middleware. -/
def systemDefaultDepth : UInt64 := 0

/-- The profile of ordinary publishers and subscriptions. -/
def standard : Profile where
  history := .keepLast
  depth := 10
  reliability := .reliable
  durability := .volatile
  deadline := .unspecified
  lifespan := .unspecified
  liveliness := .systemDefault
  lease := .unspecified
  plainNames := false

instance : Inhabited Profile := ⟨standard⟩

/-- The profile of service servers and clients. -/
def services : Profile := standard

/-- The profile that leaves every policy to the middleware. -/
def systemDefault : Profile :=
  { standard with
    history := .systemDefault
    depth := systemDefaultDepth
    reliability := .systemDefault
    durability := .systemDefault }

/-- The profile that leaves every policy it can to the peers. -/
def bestAvailable : Profile :=
  { standard with
    reliability := .bestAvailable
    durability := .bestAvailable
    liveliness := .bestAvailable
    deadline := .bestAvailable
    lease := .bestAvailable }

/-- Keeps the last `depth` samples. -/
def keepLast (q : Profile) (depth : UInt64) : Profile :=
  { q with history := .keepLast, depth }

/-- Whether some policy is to be chosen from what the peers use. -/
def hasBestAvailable (q : Profile) : Bool :=
  q.reliability = .bestAvailable || q.durability = .bestAvailable ||
    q.liveliness = .bestAvailable || q.deadline = .bestAvailable ||
    q.lease = .bestAvailable

end Profile

end DiscoveryGraph
