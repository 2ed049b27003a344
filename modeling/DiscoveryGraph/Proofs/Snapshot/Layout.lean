import DiscoveryGraph.Proofs.Cdr.Reading
import DiscoveryGraph.Snapshot.Codec

/-!
# The layout of snapshots

A snapshot is written by one flat script of steps, and a snapshot is read exactly
where its script could stand.  The sizes that the codec relies on are bounds on
the layout of that script: no node is shorter than the size that its early check
assumes, and the room reserved for a snapshot exceeds its layout by at most six
bytes for each node.
-/

namespace DiscoveryGraph

open Cdr

/-! ## Scripts -/

def gidSteps (gids : List Gid) : List WriteStep :=
  .count gids.length :: gids.flatMap fun gid => [.bytes gid.bytes]

def Node.steps (n : Node) : List WriteStep :=
  [.text n.ns] ++ ([.text n.name] ++ (gidSteps n.readers ++ gidSteps n.writers))

/-- The steps that write a snapshot. -/
def Snapshot.steps (s : Snapshot) : List WriteStep :=
  [.bytes s.participant.bytes] ++
    (.count s.nodes.length :: s.nodes.flatMap Node.steps)

/-- What holds of all bytes holds of all steps of a snapshot if it holds of its
counts and texts. -/
theorem Snapshot.forall_mem_steps_iff {P : WriteStep → Prop}
    (hbytes : ∀ data, P (.bytes data)) (s : Snapshot) :
    (∀ step ∈ s.steps, P step) ↔
      P (.count s.nodes.length) ∧ ∀ n ∈ s.nodes,
        P (.text n.ns) ∧ P (.text n.name) ∧
          P (.count n.readers.length) ∧ P (.count n.writers.length) := by
  have hgids (gids : List Gid) :
      (∀ step ∈ gidSteps gids, P step) ↔ P (.count gids.length) := by
    rw [gidSteps, ← List.map_eq_flatMap, List.forall_mem_cons, List.forall_mem_map]
    exact and_iff_left fun gid _ => hbytes gid.bytes
  have hnode (n : Node) :
      (∀ step ∈ n.steps, P step) ↔
        P (.text n.ns) ∧ P (.text n.name) ∧
          P (.count n.readers.length) ∧ P (.count n.writers.length) := by
    simp only [Node.steps, List.forall_mem_append, List.forall_mem_singleton, hgids]
  rw [steps, List.forall_mem_append, List.forall_mem_singleton, List.forall_mem_cons,
    and_iff_right (hbytes _), List.forall_mem_flatMap]
  simp only [hnode]

section Writing

variable (memory : Memory)

theorem writeGids_eq_script (gids : List Gid) :
    writeGids memory gids = (gidSteps gids).forM (WriteStep.perform memory) := by
  rw [gidSteps, ← List.map_eq_flatMap]
  simp [writeGids, WriteStep.perform]

theorem Node.write_eq_script (n : Node) :
    n.write memory = n.steps.forM (WriteStep.perform memory) := by
  simp [Node.write, Node.steps, writeGids_eq_script, WriteStep.perform]

theorem Snapshot.write_eq_script (s : Snapshot) :
    s.write memory = s.steps.forM (WriteStep.perform memory) := by
  have hnodes : s.nodes.forM (Node.write memory) =
      (s.nodes.flatMap Node.steps).forM (WriteStep.perform memory) := by
    induction s.nodes with
    | nil => rfl
    | cons n nodes ih =>
        simp only [List.forM_eq_forM] at ih
        simp [Node.write_eq_script, ih]
  rw [Snapshot.write, hnodes]
  simp [Snapshot.steps, WriteStep.perform]

end Writing

/-! ## Sizes -/

theorem length_layout_text (s : String) (offset : Nat) :
    ((WriteStep.text s).layout.slots offset).length =
      Writer.padding offset Word.size + Word.size + (Utf8.encode s).length + 1 := by
  simp [WriteStep.layout]
  omega

theorem length_layout_gid (gid : Gid) (offset : Nat) :
    ((Layout.ofScript [.bytes gid.bytes]).slots offset).length = gidSize := by
  simp [WriteStep.layout, gid.length_bytes]

theorem length_layout_gidSteps (gids : List Gid) (offset : Nat) :
    ((Layout.ofScript (gidSteps gids)).slots offset).length =
      Writer.padding offset Word.size + Word.size + gids.length * gidSize := by
  have hgids : ∀ offset, ((Layout.ofScript
      (gids.flatMap fun gid => [.bytes gid.bytes])).slots offset).length =
        gids.length * gidSize := by
    induction gids with
    | nil => simp
    | cons gid gids ih =>
        intro offset
        rw [List.flatMap_cons, Layout.ofScript_append, Layout.slots_append,
          List.length_append, length_layout_gid, ih, List.length_cons, Nat.succ_mul,
          Nat.add_comm]
  rw [gidSteps, Layout.ofScript_cons, Layout.slots_append, List.length_append, hgids,
    WriteStep.layout, Layout.length_slots_word]

/-- The size of a node, without the fillers before its four lengths. -/
def Node.contentSize (n : Node) : Nat :=
  (Utf8.encode n.ns).length + (Utf8.encode n.name).length +
    (n.readers.length + n.writers.length) * gidSize + 18

/-- The hint leaves six bytes for the fillers. -/
theorem Node.nodeSizeHint_eq (n : Node) : Snapshot.nodeSizeHint n = n.contentSize + 6 := by
  simp only [Snapshot.nodeSizeHint, contentSize, leastNodeSize]
  omega

theorem Node.contentSize_le_length_layout (n : Node) (offset : Nat) :
    n.contentSize ≤ ((Layout.ofScript n.steps).slots offset).length := by
  simp only [contentSize, steps, Layout.ofScript_singleton, Layout.ofScript_append,
    Layout.slots_append, List.length_append, length_layout_text, length_layout_gidSteps,
    Nat.add_mul, Word.size]
  omega

/-- No node is shorter than one with empty names and without endpoints. -/
theorem Node.leastNodeSize_le_length_layout (n : Node) (offset : Nat) :
    leastNodeSize ≤ ((Layout.ofScript n.steps).slots offset).length := by
  simp only [leastNodeSize, steps, Layout.ofScript_singleton, Layout.ofScript_append,
    Layout.slots_append, List.length_append, length_layout_text, length_layout_gidSteps,
    Writer.padding, Word.size]
  omega

theorem Snapshot.length_layout (s : Snapshot) :
    ((Layout.ofScript s.steps).slots 0).length =
      gidSize + Word.size +
        ((Layout.ofScript (s.nodes.flatMap Node.steps)).slots
          (gidSize + Word.size)).length := by
  have hpadding : Writer.padding gidSize Word.size = 0 := rfl
  simp [steps, WriteStep.layout, s.participant.length_bytes, hpadding, Nat.add_assoc]

/-- The room reserved for a snapshot exceeds its layout by at most six bytes for
each node. -/
theorem Snapshot.sizeHint_le (s : Snapshot) :
    s.sizeHint ≤ ((Layout.ofScript s.steps).slots 0).length + 6 * s.nodes.length := by
  have hnodes : ∀ (nodes : List Node) (base offset : Nat),
      nodes.foldr (fun n room => nodeSizeHint n + room) base ≤
        base + ((Layout.ofScript (nodes.flatMap Node.steps)).slots offset).length +
          6 * nodes.length := by
    intro nodes base
    induction nodes with
    | nil => simp
    | cons n nodes ih =>
        intro offset
        have hnode := n.contentSize_le_length_layout offset
        have hrest := ih (offset + ((Layout.ofScript n.steps).slots offset).length)
        rw [List.foldr_cons, List.flatMap_cons, Layout.ofScript_append,
          Layout.slots_append, List.length_append, List.length_cons, n.nodeSizeHint_eq]
        omega
  rw [length_layout]
  exact hnodes s.nodes _ _

/-- The layout of a snapshot holds each of its nodes. -/
theorem Snapshot.leastNodeSize_mul_le (s : Snapshot) :
    gidSize + Word.size + s.nodes.length * leastNodeSize ≤
      ((Layout.ofScript s.steps).slots 0).length := by
  rw [length_layout]
  exact Nat.add_le_add_left
    (Read.mul_size_le_length_script Node.leastNodeSize_le_length_layout s.nodes _) _

/-! ## Reading -/

section Reading

variable {policy : LengthPolicy}

theorem Gid.bytes_padded {data : List UInt8} (h : data.length = gidSize) :
    (Gid.padded data).bytes = data := by
  simp [Gid.padded, List.take_of_length_le (Nat.le_of_eq h), h]

theorem parses_readGid : Read.Parses readGid fun gid => [.bytes gid.bytes] := by
  intro r gid next
  rw [Layout.ofScript_singleton, WriteStep.layout, List.forall_mem_singleton]
  simp only [readGid, Action.runFrom_bind_eq_ok_iff, Read.runFrom_bytes_eq_ok_iff,
    Action.runFrom_pure, Prod.mk.injEq, Except.ok.injEq]
  constructor
  · rintro ⟨data, _, ⟨hlength, htakes⟩, rfl, rfl⟩
    rw [Gid.bytes_padded hlength]
    exact ⟨trivial, htakes⟩
  · rintro ⟨-, htakes⟩
    refine ⟨gid.bytes, next, ⟨gid.length_bytes, htakes⟩, ?_, rfl⟩
    exact Gid.ext_bytes (Gid.bytes_padded gid.length_bytes)

theorem parses_readGids (hpolicy : policy.Admits) :
    Read.Parses (readGids policy) gidSteps :=
  Read.parses_sequence hpolicy .gid parses_readGid fun gid offset =>
    Nat.le_of_eq (length_layout_gid gid offset).symm

theorem Node.parses_read (hpolicy : policy.Admits) :
    Read.Parses (Node.read policy) Node.steps := by
  intro r n next
  simp only [Node.read, (Read.parses_text hpolicy).runFrom_bind_eq_ok_iff,
    (parses_readGids hpolicy).runFrom_bind_eq_ok_iff, Action.runFrom_pure, Prod.mk.injEq,
    Except.ok.injEq, Node.steps, List.forall_mem_append, Layout.ofScript_append,
    Reader.takes_append_iff]
  constructor
  · rintro ⟨ns, r₁, ⟨hns, h₁⟩, name, r₂, ⟨hname, h₂⟩, readers, r₃, ⟨hreaders, h₃⟩,
      writers, r₄, ⟨hwriters, h₄⟩, rfl, rfl⟩
    exact ⟨⟨hns, hname, hreaders, hwriters⟩, r₁, h₁, r₂, h₂, r₃, h₃, h₄⟩
  · rintro ⟨⟨hns, hname, hreaders, hwriters⟩, r₁, h₁, r₂, h₂, r₃, h₃, h₄⟩
    exact ⟨n.ns, r₁, ⟨hns, h₁⟩, n.name, r₂, ⟨hname, h₂⟩, n.readers, r₃, ⟨hreaders, h₃⟩,
      n.writers, next, ⟨hwriters, h₄⟩, rfl, rfl⟩

/-- A snapshot is read exactly where its script could stand. -/
theorem Snapshot.parses_read (hpolicy : policy.Admits) :
    Read.Parses (Snapshot.read policy) Snapshot.steps := by
  have hnodes := Read.parses_sequence hpolicy .node (Node.parses_read hpolicy)
    Node.leastNodeSize_le_length_layout
  intro r s next
  simp only [Snapshot.read, parses_readGid.runFrom_bind_eq_ok_iff,
    hnodes.runFrom_bind_eq_ok_iff, Action.runFrom_pure, Prod.mk.injEq, Except.ok.injEq,
    Snapshot.steps, List.forall_mem_append, Layout.ofScript_append,
    Reader.takes_append_iff]
  constructor
  · rintro ⟨participant, r₁, ⟨hparticipant, h₁⟩, nodes, r₂, ⟨hnodes, h₂⟩, rfl, rfl⟩
    exact ⟨⟨hparticipant, hnodes⟩, r₁, h₁, h₂⟩
  · rintro ⟨⟨hparticipant, hnodes⟩, r₁, h₁, h₂⟩
    exact ⟨s.participant, r₁, ⟨hparticipant, h₁⟩, s.nodes, next, ⟨hnodes, h₂⟩, rfl, rfl⟩

end Reading

end DiscoveryGraph
