/-!
# Durations

A `Duration` is a pair of 64-bit counts, seconds and nanoseconds, and the
nanoseconds need not stay below one second. Durations are compared as pairs.
Three values are set aside as sentinels: zero means "not specified", and the
two largest values that fit a signed 64-bit count of nanoseconds mean
"infinite" and "best available".
-/

namespace DiscoveryGraph

/-- A span of time in seconds and nanoseconds. -/
structure Duration where
  sec : UInt64
  nsec : UInt64
  deriving DecidableEq, Inhabited, Repr

namespace Duration

/-- No duration was given. -/
def unspecified : Duration := ⟨0, 0⟩

/-- A duration without end. -/
def infinite : Duration := ⟨9223372036, 854775807⟩

/-- The duration is to be chosen from what the peers use. -/
def bestAvailable : Duration := ⟨9223372036, 854775806⟩

/-- Whether this is the duration `unspecified`. -/
def isUnspecified (d : Duration) : Bool := d.sec == 0 && d.nsec == 0

/-- The span that `d` stands for, as an exact count of nanoseconds. -/
def nanoseconds (d : Duration) : Nat := d.sec.toNat * 1000000000 + d.nsec.toNat

/-- Whole seconds. -/
def ofSeconds (s : UInt64) : Duration := ⟨s, 0⟩

/-- Milliseconds, split at the second. -/
def ofMilliseconds (ms : UInt64) : Duration :=
  ⟨ms / 1000, (ms % 1000) * 1000000⟩

/-- Nanoseconds, split at the second. -/
def ofNanoseconds (ns : UInt64) : Duration :=
  ⟨ns / 1000000000, ns % 1000000000⟩

/-- Durations are ordered by seconds, then by nanoseconds. -/
instance : Ord Duration :=
  ⟨fun a b => (compare a.sec b.sec).then (compare a.nsec b.nsec)⟩

instance : LT Duration := ltOfOrd

instance : LE Duration := leOfOrd

instance : Max Duration := maxOfLe

instance : Min Duration := minOfLe

/-- The seconds and nanoseconds in decimal, each with its unit. -/
def text (d : Duration) : String :=
  Nat.repr d.sec.toNat ++ "s " ++ Nat.repr d.nsec.toNat ++ "ns"

/-- The largest number of seconds that fits a signed 32-bit count. -/
def wireSecondsMax : UInt64 := 2147483647

/-- The number of nanoseconds in a second. -/
def nanosecondsPerSecond : UInt64 := 1000000000

/-- The whole seconds held by the nanoseconds, cut at `wireSecondsMax`. -/
def carry (d : Duration) : UInt64 :=
  min (d.nsec / nanosecondsPerSecond) wireSecondsMax

/-- Whether the whole duration has more seconds than the wire can carry. -/
def exceedsWire (d : Duration) : Bool :=
  wireSecondsMax < d.nsec / nanosecondsPerSecond ||
    wireSecondsMax - d.carry < d.sec

/-- The nearest duration that the wire can carry: nanoseconds below one
second, and at most `wireSecondsMax` seconds. -/
def clamp (d : Duration) : Duration :=
  if d.exceedsWire then ⟨wireSecondsMax, nanosecondsPerSecond - 1⟩
  else ⟨d.sec + d.carry, d.nsec - d.carry * nanosecondsPerSecond⟩

end Duration

end DiscoveryGraph
