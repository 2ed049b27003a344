/-!
# Guards

A `Guard` latches that something happened until somebody takes notice.
-/

namespace DiscoveryGraph

/-- A flag that is set by events and reset by whoever takes notice. -/
structure Guard where
  triggered : Bool
  deriving DecidableEq, Inhabited, Repr

namespace Guard

/-- A guard for which nothing has happened. -/
def idle : Guard := ⟨false⟩

/-- Something happened. -/
def trigger (_ : Guard) : Guard := ⟨true⟩

/-- Whether something happened since notice was taken, and the guard for which
nothing has happened since. -/
def take (g : Guard) : Bool × Guard := (g.triggered, idle)

/-- A waiting thread looks at the guard whenever it wakes, and before it first
sleeps. It takes notice if the guard is triggered or its time is up, and goes back to
sleep otherwise. -/
def wake (g : Guard) (timeUp : Bool) : Option Bool × Guard :=
  if g.triggered || timeUp then (some g.triggered, idle) else (none, g)

/-- A wait during which nothing happens answers, when it ends, like `take`. -/
def waitUndisturbed (g : Guard) : Bool × Guard := g.take

end Guard

end DiscoveryGraph
