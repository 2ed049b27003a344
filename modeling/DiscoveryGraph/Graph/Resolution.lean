import DiscoveryGraph.Graph.Query
import DiscoveryGraph.Qos.Resolution

/-!
# Choosing settings from what the graph knows

The peers of an endpoint on a topic are the endpoints of the opposite kind that
the graph holds on that topic.
-/

namespace DiscoveryGraph

/-- Fills in the profile of an endpoint on a topic from its peers in the
graph. -/
def Graph.resolveOnTopic (g : Graph) (kind : EndpointKind) (topic : String) (q : Profile) :
    Except Error Unit × Profile :=
  Id.run (q.resolveOnTopic kind (fun g topic peer => pure (.ok (g.endpointsOn peer topic id)))
    g topic)

end DiscoveryGraph
