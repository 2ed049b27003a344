import DiscoveryGraph.Graph.Basic

/-!
# The graph as text

A report lists writers, readers and participants, one line for each piece of
information, in the order of the maps.
-/

namespace DiscoveryGraph

/-- The line of an entity. -/
def Entity.reportLine (gid : Gid) (e : Entity) : String :=
  "    gid: '" ++ gid.text ++ "', topic name: '" ++ e.topic ++ "', topic_type: '" ++
    e.topicType ++ "'"

/-- The lines of the endpoints of a node. -/
def endpointLines (title : String) (gids : List Gid) : List String :=
  ("      associated data " ++ title ++ " gids:") ::
    gids.map fun gid => "        " ++ gid.text

/-- The lines of a node. -/
def Node.reportLines (n : Node) : List String :=
  ("      namespace: '" ++ n.ns ++ "' name: '" ++ n.name ++ "'") ::
    (endpointLines "readers" n.readers ++ endpointLines "writers" n.writers)

/-- The lines of a participant. -/
def Participant.reportLines (gid : Gid) (p : Participant) : List String :=
  ["    gid: '" ++ gid.text ++ "'", "    enclave name '" ++ p.enclave ++ "'",
    "    nodes:"] ++ p.nodes.flatMap Node.reportLines

namespace Graph

/-- The line above and below a report. -/
def rule : String := "---------------------------------"

/-- The lines of a report. -/
def reportLines (g : Graph) : List String :=
  [rule, "Graph cache:", "  Discovered data writers:"] ++
    g.writers.toList.map (fun (gid, e) => e.reportLine gid) ++
    ["  Discovered data readers:"] ++
    g.readers.toList.map (fun (gid, e) => e.reportLine gid) ++
    ["  Discovered participants:"] ++
    g.participants.toList.flatMap (fun (gid, p) => p.reportLines gid) ++
    [rule]

/-- The report, each line ended. -/
def report (g : Graph) : String :=
  String.join (g.reportLines.map (· ++ "\n"))

end Graph

end DiscoveryGraph
