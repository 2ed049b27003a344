/-!
# Paths

A path is a text whose components are separated by slashes. Joining does not
normalise: it adds a slash only where one is needed, and an absolute path on
the right stands alone.
-/

namespace DiscoveryGraph.Path

/-- Whether a path starts at the root of the file system. -/
def isAbsolute (path : String) : Bool := path.toList.head? = some '/'

/-- The path `right` seen from `left`. -/
def join (left right : String) : String :=
  if isAbsolute right then right
  else if left.isEmpty || left.toList.getLast? = some '/' then left ++ right
  else left ++ "/" ++ right

end DiscoveryGraph.Path
