import DiscoveryGraph.Text.Hex

/-!
# Endpoint and participant identities

A `Gid` is sixteen bytes. Shorter input is padded with zeros on the right and
longer input is cut, so that only empty input is refused. Gids are ordered
byte by byte, which is the order in which every listing of the graph presents
its entries. The text of a gid separates unpadded hexadecimal bytes by dots.
-/

namespace DiscoveryGraph

/-- The number of bytes of a gid. -/
abbrev gidSize : Nat := 16

/-- A globally unique identity of a participant, a writer or a reader. -/
structure Gid where
  /-- The bytes of the identity, most significant first. -/
  bytes : List UInt8
  /-- A gid has exactly `gidSize` bytes. -/
  length_bytes : bytes.length = gidSize
  deriving DecidableEq

namespace Gid

theorem ext_bytes {a b : Gid} (h : a.bytes = b.bytes) : a = b := by
  cases a
  cases b
  simp_all

/-- The first `gidSize` bytes of `data`, filled up with zeros on the right. -/
def padded (data : List UInt8) : Gid where
  bytes := data.take gidSize ++ List.replicate (gidSize - data.length) 0
  length_bytes := by simp; omega

/-- The identity that `data` stands for; empty data stands for none. -/
def ofBytes? (data : List UInt8) : Option Gid :=
  if data.isEmpty then none else some (padded data)

/-- Whether every byte is zero. -/
def isZero (g : Gid) : Bool := g.bytes.all (· == 0)

instance : Inhabited Gid := ⟨padded []⟩

/-- Gids are ordered as their bytes are, lexicographically. -/
instance : Ord Gid := ⟨fun a b => compare a.bytes b.bytes⟩

theorem compare_eq (a b : Gid) : compare a b = compare a.bytes b.bytes := rfl

instance : Std.TransOrd Gid where
  eq_swap {a b} := Std.OrientedOrd.eq_swap (a := a.bytes) (b := b.bytes)
  isLE_trans {a b c} :=
    Std.TransOrd.isLE_trans (a := a.bytes) (b := b.bytes) (c := c.bytes)

instance : Std.LawfulEqOrd Gid where
  eq_of_compare h := ext_bytes (Std.LawfulEqOrd.eq_of_compare h)

/-- The bytes in unpadded hexadecimal, separated by dots. -/
def text (g : Gid) : String :=
  String.ofList (List.intercalate ['.'] (g.bytes.map Hex.short))

/-- The text of a gid marked as one, for diagnostics. -/
def labelled (g : Gid) : String := "Gid(" ++ g.text ++ ")"

/-- Gids in ascending order; equal ones are kept. -/
def sort (gids : List Gid) : List Gid :=
  gids.mergeSort fun a b => (compare a b).isLE

end Gid

end DiscoveryGraph
