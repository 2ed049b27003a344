/-!
# Names on the wire

Topics carry a mark in front of the name that users see, and types carry the
namespace and the underscore of generated code. These functions undo both. A
query takes any function on names; these are two to run it with.
-/

namespace DiscoveryGraph.Demangling

/-- The name of a topic whose mark is `rt`; empty for any other topic. -/
def userTopic (topic : String) : String :=
  match topic.dropPrefix? "rt" with
  | some name => name.copy
  | none => ""

/-- The name of a type without the namespace of generated code and without
underscores at its end. -/
def userType (topicType : String) : String :=
  ((topicType.replace "::dds_::" "::").dropEndWhile '_').copy

end DiscoveryGraph.Demangling
