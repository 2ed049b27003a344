/-!
# Quality of service policies

Each policy is a small set of choices, with two more for "the middleware
decides" and "not known", and where it makes sense one for "choose from what
the peers use". A policy that is not known has no name.
-/

namespace DiscoveryGraph

/-- How many samples an endpoint keeps. -/
inductive History
  | systemDefault
  | keepLast
  | keepAll
  | unknown
  deriving DecidableEq, Inhabited, Repr

/-- Whether every sample arrives. -/
inductive Reliability
  | systemDefault
  | reliable
  | bestEffort
  | unknown
  | bestAvailable
  deriving DecidableEq, Inhabited, Repr

/-- Whether late subscriptions receive earlier samples. -/
inductive Durability
  | systemDefault
  | transientLocal
  | volatile
  | unknown
  | bestAvailable
  deriving DecidableEq, Inhabited, Repr

/-- How a publisher shows that it is alive. -/
inductive Liveliness
  | systemDefault
  | automatic
  | manualByNode
  | manualByTopic
  | unknown
  | bestAvailable
  deriving DecidableEq, Inhabited, Repr

/-- The name of a history policy, if it has one. -/
def History.name? : History → Option String
  | systemDefault => some "system_default"
  | keepLast => some "keep_last"
  | keepAll => some "keep_all"
  | unknown => none

namespace Reliability

/-- The name of a reliability policy, if it has one. -/
def name? : Reliability → Option String
  | systemDefault => some "system_default"
  | reliable => some "reliable"
  | bestEffort => some "best_effort"
  | bestAvailable => some "best_available"
  | unknown => none

/-- Whether the policy says nothing about what the endpoint does. -/
def isOpen (p : Reliability) : Bool := p = systemDefault || p = unknown

end Reliability

namespace Durability

/-- The name of a durability policy, if it has one. -/
def name? : Durability → Option String
  | systemDefault => some "system_default"
  | transientLocal => some "transient_local"
  | volatile => some "volatile"
  | bestAvailable => some "best_available"
  | unknown => none

/-- Whether the policy says nothing about what the endpoint does. -/
def isOpen (p : Durability) : Bool := p = systemDefault || p = unknown

end Durability

namespace Liveliness

/-- The name of a liveliness policy, if it has one. -/
def name? : Liveliness → Option String
  | systemDefault => some "system_default"
  | automatic => some "automatic"
  | manualByNode => some "manual_by_node"
  | manualByTopic => some "manual_by_topic"
  | bestAvailable => some "best_available"
  | unknown => none

/-- Whether the policy says nothing about what the endpoint does. -/
def isOpen (p : Liveliness) : Bool := p = systemDefault || p = unknown

end Liveliness

end DiscoveryGraph
