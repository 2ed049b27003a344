import DiscoveryGraph.Cdr.Reader
import DiscoveryGraph.Cdr.Writer
import DiscoveryGraph.Snapshot

/-!
# Snapshots on the wire

A snapshot is written after the header of little-endian CDR: the gid of the
participant, the number of nodes, and for each node its namespace, its name,
its readers and its writers. Reading checks the first two bytes of the header
only and ignores what follows the last node.
-/

namespace DiscoveryGraph

open Cdr

/-- The header of little-endian CDR without options. -/
def encapsulation : List UInt8 := [0, 1, 0, 0]

/-- The size of a node on the wire whose names are empty and which has no
endpoints. -/
def leastNodeSize : Nat := 24

/-- Writes a list of gids. -/
def writeGids (memory : Memory) (gids : List Gid) : Write := do
  Write.count memory gids.length
  gids.forM fun gid => Write.bytes memory gid.bytes

/-- Writes a node. -/
def Node.write (memory : Memory) (n : Node) : Write := do
  Write.text memory n.ns
  Write.text memory n.name
  writeGids memory n.readers
  writeGids memory n.writers

/-- Reads a gid. -/
def readGid : Read Gid := do
  return .padded (← Read.bytes gidSize)

/-- Reads a list of gids. -/
def readGids (policy : LengthPolicy) : Read (List Gid) :=
  Read.sequence policy .gid gidSize readGid

/-- Reads a node. -/
def Node.read (policy : LengthPolicy) : Read Node := do
  let ns ← Read.text policy
  let name ← Read.text policy
  let readers ← readGids policy
  let writers ← readGids policy
  return { name, ns, readers, writers }

namespace Snapshot

/-- Writes a snapshot. -/
def write (memory : Memory) (s : Snapshot) : Write := do
  Write.bytes memory s.participant.bytes
  Write.count memory s.nodes.length
  s.nodes.forM (Node.write memory)

/-- Room that is enough for a node, whatever padding it needs. -/
def nodeSizeHint (n : Node) : Nat :=
  (Utf8.encode n.ns).length + (Utf8.encode n.name).length + leastNodeSize +
    (n.readers.length + n.writers.length) * gidSize

/-- Room that is enough for the body of a snapshot. -/
def sizeHint (s : Snapshot) : Nat :=
  s.nodes.foldr (fun n room => nodeSizeHint n + room) (gidSize + Word.size)

/-- The message that carries a snapshot. The hint is far from the largest address,
since the snapshot itself takes more memory. -/
def encode (memory : Memory) (s : Snapshot) : Except Error (List UInt8) := do
  let start ← Writer.start memory encapsulation s.sizeHint
  match (write memory s).runFrom start with
  | (.ok (), w) => .ok w.finish
  | (.error e, _) => .error e

/-- Reads the body of a snapshot. -/
def read (policy : LengthPolicy) : Read Snapshot := do
  let participant ← readGid
  let nodes ← Read.sequence policy .node leastNodeSize (Node.read policy)
  return { participant, nodes }

/-- The body of a message, if its header names the encapsulation that is
understood. -/
def body : List UInt8 → Except Error (List UInt8)
  | kind₀ :: kind₁ :: _ :: _ :: body =>
      if encapsulation.take 2 = [kind₀, kind₁] then .ok body
      else
        .error (.serialization 0
          (.foreignEncapsulation (String.ofList (Hex.encode [kind₀, kind₁]))))
  | _ => .error (.serialization 0 .missingEncapsulation)

/-- The snapshot that a message carries, where announced counts are treated as
`policy` says. -/
def decodeWith (policy : LengthPolicy) (data : List UInt8) : Except Error Snapshot := do
  let body ← body data
  ((read policy).runFrom (.ofBody body)).1

/-- The snapshot that a message carries. -/
def decode (data : List UInt8) : Except Error Snapshot := decodeWith .bounded data

end Snapshot

end DiscoveryGraph
