import DiscoveryGraph.Endpoint
import DiscoveryGraph.Error

/-!
# Choosing settings from what the peers use

A setting left to "best available" is replaced by a value chosen from the
peers' profiles. A subscription takes the strongest value that every publisher
offers. A publisher offers the strongest reliability and durability, and as
much liveliness and as short durations as the most demanding subscription
requests. Settings that were not left open are never touched.
-/

namespace DiscoveryGraph

/-- Values for the five settings that can be left to "best available". -/
structure Choice where
  reliability : Reliability
  durability : Durability
  liveliness : Liveliness
  deadline : Duration
  lease : Duration
  deriving DecidableEq, Repr

/-- Replaces every setting that was left to "best available" by the chosen
one. -/
def Profile.fill (q : Profile) (c : Choice) : Profile :=
  { q with
    reliability := if q.reliability = .bestAvailable then c.reliability else q.reliability
    durability := if q.durability = .bestAvailable then c.durability else q.durability
    liveliness := if q.liveliness = .bestAvailable then c.liveliness else q.liveliness
    deadline := if q.deadline = .bestAvailable then c.deadline else q.deadline
    lease := if q.lease = .bestAvailable then c.lease else q.lease }

namespace Choice

/-- The durations that are specified. -/
def specified (durations : List Duration) : List Duration :=
  durations.filter (· ≠ .unspecified)

/-- The longest specified duration; unspecified if there is none. -/
def longest (durations : List Duration) : Duration :=
  (specified durations).foldl max .unspecified

/-- The shortest specified duration, but not more than infinite; unspecified if
there is none. -/
def shortest (durations : List Duration) : Duration :=
  match specified durations with
  | [] => .unspecified
  | ds => ds.foldl min .infinite

/-- The strongest settings that all publishers offer. No publisher at all
counts as every publisher offering everything. -/
def forSubscription (offers : List Profile) : Choice where
  reliability := if offers.all (·.reliability = .reliable) then .reliable else .bestEffort
  durability := if offers.all (·.durability = .transientLocal) then .transientLocal else .volatile
  liveliness := if offers.all (·.liveliness = .manualByTopic) then .manualByTopic else .automatic
  deadline := longest (offers.map (·.deadline))
  lease := longest (offers.map (·.lease))

/-- The weakest settings that serve all subscriptions, except that reliability
and durability are always the strongest. -/
def forPublisher (requests : List Profile) : Choice where
  reliability := .reliable
  durability := .transientLocal
  liveliness := if requests.any (·.liveliness = .manualByTopic) then .manualByTopic else .automatic
  deadline := shortest (requests.map (·.deadline))
  lease := shortest (requests.map (·.lease))

/-- The settings of service servers and clients, which consult no peers. -/
def forServices : Choice where
  reliability := Profile.services.reliability
  durability := Profile.services.durability
  liveliness := Profile.services.liveliness
  deadline := Profile.services.deadline
  lease := Profile.services.lease

/-- The choice for an endpoint of the given kind among its peers. -/
def forKind : EndpointKind → List Profile → Choice
  | .publisher => forPublisher
  | .subscription => forSubscription

end Choice

namespace Profile

/-- Fills in the profile of an endpoint from the endpoints it is matched
with. -/
def resolve (kind : EndpointKind) (peers : List EndpointInfo) (q : Profile) : Profile :=
  q.fill (Choice.forKind kind (peers.map (·.qos)))

/-- Fills in the profile of a service server or client. -/
def resolveForServices (q : Profile) : Profile := q.fill .forServices

/-- Fills in the profile of an endpoint on `topic`. The peers are fetched only
if some setting was left open; where that fails the profile is kept. -/
def resolveOnTopic {m : Type → Type} [Monad m] {node : Type} (kind : EndpointKind)
    (fetch : node → String → EndpointKind → m (Except Error (List EndpointInfo)))
    (n : node) (topic : String) (q : Profile) : m (Except Error Unit × Profile) := do
  if q.hasBestAvailable then
    match ← fetch n topic kind.opposite with
    | .ok peers => return (.ok (), q.resolve kind peers)
    | .error e => return (.error e, q)
  else return (.ok (), q)

end Profile

end DiscoveryGraph
