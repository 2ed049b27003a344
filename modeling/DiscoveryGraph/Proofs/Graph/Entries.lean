import DiscoveryGraph.Proofs.Graph.Nodes
import DiscoveryGraph.Proofs.Graph.Operations

/-!
# What an operation does to one entry

Every entry of a graph is changed on its own: what an operation makes of an entity
or of a participant depends on that entry and on the operation, and on nothing else
in the graph.  The replies depend on one entry only as well.
-/

namespace DiscoveryGraph

namespace Operation

/-- What the operation makes of the entity of a kind under a gid. -/
def onEntity (kind : EndpointKind) (gid : Gid) (e? : Option Entity) : Operation → Option Entity
  | addEntity k i e => if k = kind ∧ i = gid then e?.or (some e) else e?
  | removeEntity k i => if k = kind ∧ i = gid then none else e?
  | _ => e?

/-- What the operation makes of the participant under a gid. -/
def onParticipant (gid : Gid) (p? : Option Participant) : Operation → Option Participant
  | addParticipant i enclave => if i = gid then some { p?.getD .empty with enclave } else p?
  | removeParticipant i => if i = gid then none else p?
  | changeNode i name action =>
      if i = gid then
        p?.map fun p => { p with nodes := (action.apply name p.nodes).getD p.nodes }
      else p?
  | update s => if s.participant = gid then some { p?.getD .empty with nodes := s.nodes } else p?
  | _ => p?

end Operation

namespace Graph

/-- The graph after an operation. -/
def after (g : Graph) (op : Operation) : Graph := (g.perform op).graph g

theorem getElem?_withParticipant (g : Graph) (gid other : Gid) (p : Participant) :
    (g.withParticipant gid p).participants[other]? =
      if other = gid then some p else g.participants[other]? := by
  rw [participants_withParticipant, Std.ExtTreeMap.getElem?_insert]
  simp only [Std.compare_eq_iff_eq, eq_comm (a := other)]

theorem withParticipant_withParticipant (g : Graph) (gid : Gid) (p q : Participant) :
    (g.withParticipant gid p).withParticipant gid q = g.withParticipant gid q := by
  refine Graph.ext rfl rfl (Std.ExtTreeMap.ext_getElem? fun other => ?_)
  rw [getElem?_withParticipant, getElem?_withParticipant, getElem?_withParticipant]
  by_cases hother : other = gid
  · rw [if_pos hother, if_pos hother]
  · rw [if_neg hother, if_neg hother, if_neg hother]

theorem withParticipant_of_getElem? {g : Graph} {gid : Gid} {p : Participant}
    (hp : g.participants[gid]? = some p) : g.withParticipant gid p = g := by
  refine Graph.ext rfl rfl (Std.ExtTreeMap.ext_getElem? fun other => ?_)
  rw [getElem?_withParticipant]
  by_cases hother : other = gid
  · rw [if_pos hother, hother, hp]
  · rw [if_neg hother]

theorem getElem?_insert_gid {value : Type} (m : GidMap value) (gid other : Gid) (v : value) :
    (m.insert gid v)[other]? = if gid = other then some v else m[other]? := by
  rw [Std.ExtTreeMap.getElem?_insert]
  simp only [Std.compare_eq_iff_eq]

theorem getElem?_erase_gid {value : Type} (m : GidMap value) (gid other : Gid) :
    (m.erase gid)[other]? = if gid = other then none else m[other]? := by
  rw [Std.ExtTreeMap.getElem?_erase]
  simp only [Std.compare_eq_iff_eq]

variable (g : Graph) (kind : EndpointKind) (gid : Gid)

/-! ## Entities -/

theorem reply_addEntity (e : Entity) :
    (g.perform (.addEntity kind gid e)).reply = .flag (decide (gid ∉ g.entities kind)) := by
  by_cases hpresent : gid ∈ g.entities kind <;>
    simp [perform, addEntity, hpresent, Change.map, Change.reply]

theorem reply_removeEntity :
    (g.perform (.removeEntity kind gid)).reply = .flag (decide (gid ∈ g.entities kind)) := by
  by_cases hpresent : gid ∈ g.entities kind <;>
    simp [perform, removeEntity, hpresent, Change.map, Change.reply]

theorem after_addEntity (e : Entity) :
    g.after (.addEntity kind gid e) =
      if gid ∈ g.entities kind then g
      else g.withEntities kind ((g.entities kind).insert gid e) := by
  by_cases hpresent : gid ∈ g.entities kind <;>
    simp [after, perform, addEntity, hpresent, Change.map, Change.graph]

theorem after_removeEntity :
    g.after (.removeEntity kind gid) =
      if gid ∈ g.entities kind then g.withEntities kind ((g.entities kind).erase gid)
      else g := by
  by_cases hpresent : gid ∈ g.entities kind <;>
    simp [after, perform, removeEntity, hpresent, Change.map, Change.graph]

/-- Writers, readers and participants are kept apart. -/
theorem entities_after_of_ne {op : Operation} (hkind : op.kind? ≠ some kind) :
    (g.after op).entities kind = g.entities kind := by
  unfold after
  obtain ⟨r, -, h⟩ | ⟨r, next, heffect, h⟩ := g.perform_cases op
  · rw [h]
    rfl
  · rw [h]
    cases heffect with
    | @addEntity k i e habsent =>
        have hk : kind ≠ k := fun hk => hkind (congrArg some hk.symm)
        exact (entities_withEntities _ _ _ _).trans (if_neg hk)
    | @removeEntity k i hpresent =>
        have hk : kind ≠ k := fun hk => hkind (congrArg some hk.symm)
        exact (entities_withEntities _ _ _ _).trans (if_neg hk)
    | removeParticipant hpresent => cases kind <;> rfl
    | addParticipant i enclave => exact entities_withParticipant _ _ _ _
    | changeNode hpresent hnodes => exact entities_withParticipant _ _ _ _
    | update s => exact entities_withParticipant _ _ _ _

theorem getElem?_entities_insert (k : EndpointKind) (i : Gid) (e : Entity) :
    ((g.withEntities k ((g.entities k).insert i e)).entities kind)[gid]? =
      if k = kind ∧ i = gid then some e else (g.entities kind)[gid]? := by
  rw [entities_withEntities]
  by_cases hk : kind = k
  · rw [if_pos hk, getElem?_insert_gid, hk]
    simp
  · rw [if_neg hk, if_neg fun hkey => hk hkey.1.symm]

theorem getElem?_entities_erase (k : EndpointKind) (i : Gid) :
    ((g.withEntities k ((g.entities k).erase i)).entities kind)[gid]? =
      if k = kind ∧ i = gid then none else (g.entities kind)[gid]? := by
  rw [entities_withEntities]
  by_cases hk : kind = k
  · rw [if_pos hk, getElem?_erase_gid, hk]
    simp
  · rw [if_neg hk, if_neg fun hkey => hk hkey.1.symm]

theorem getElem?_entities_after (op : Operation) :
    ((g.after op).entities kind)[gid]? = op.onEntity kind gid (g.entities kind)[gid]? := by
  cases op with
  | addEntity k i e =>
      rw [after_addEntity, Operation.onEntity]
      by_cases hpresent : i ∈ g.entities k
      · rw [if_pos hpresent]
        by_cases hkey : k = kind ∧ i = gid
        · obtain ⟨rfl, rfl⟩ := hkey
          have hsome : ((g.entities k)[i]?).isSome = true :=
            Std.ExtTreeMap.isSome_getElem?_iff_mem.mpr hpresent
          rw [if_pos ⟨rfl, rfl⟩, Option.or_of_isSome hsome]
        · rw [if_neg hkey]
      · rw [if_neg hpresent, getElem?_entities_insert]
        by_cases hkey : k = kind ∧ i = gid
        · obtain ⟨rfl, rfl⟩ := hkey
          have hnone : (g.entities k)[i]? = none := Std.ExtTreeMap.getElem?_eq_none hpresent
          rw [if_pos ⟨rfl, rfl⟩, if_pos ⟨rfl, rfl⟩, hnone, Option.none_or]
        · rw [if_neg hkey, if_neg hkey]
  | removeEntity k i =>
      rw [after_removeEntity, Operation.onEntity]
      by_cases hpresent : i ∈ g.entities k
      · rw [if_pos hpresent, getElem?_entities_erase]
      · rw [if_neg hpresent]
        by_cases hkey : k = kind ∧ i = gid
        · obtain ⟨rfl, rfl⟩ := hkey
          rw [if_pos ⟨rfl, rfl⟩]
          exact Std.ExtTreeMap.getElem?_eq_none hpresent
        · rw [if_neg hkey]
  | _ =>
      rw [entities_after_of_ne g kind (by simp [Operation.kind?])]
      rfl

/-! ## Participants -/

theorem after_removeParticipant :
    g.after (.removeParticipant gid) =
      if gid ∈ g.participants then { g with participants := g.participants.erase gid } else g := by
  by_cases hpresent : gid ∈ g.participants <;>
    simp [after, perform, removeParticipant, hpresent, Change.map, Change.graph]

theorem participants_after_of_kind? {op : Operation} (hkind : op.kind? ≠ none) :
    (g.after op).participants = g.participants := by
  cases op with
  | addEntity k i e =>
      rw [after_addEntity]
      by_cases hpresent : i ∈ g.entities k
      · rw [if_pos hpresent]
      · rw [if_neg hpresent, participants_withEntities]
  | removeEntity k i =>
      rw [after_removeEntity]
      by_cases hpresent : i ∈ g.entities k
      · rw [if_pos hpresent, participants_withEntities]
      · rw [if_neg hpresent]
  | _ => contradiction

section changeNode

variable {gid} {name : NodeName} {action : NodeAction} {p : Participant} {nodes : List Node}

theorem changeNode_of_absent (hpresent : g.participants[gid]? = none) :
    g.changeNode gid name action = .unchanged (.error (.participantNotFound gid)) := by
  simp only [changeNode, hpresent]

theorem changeNode_of_unnamed (hpresent : g.participants[gid]? = some p)
    (hnodes : action.apply name p.nodes = none) :
    g.changeNode gid name action = .unchanged (.error (.nodeNotFound name)) := by
  simp only [changeNode, hpresent, hnodes]

theorem changeNode_of_named (hpresent : g.participants[gid]? = some p)
    (hnodes : action.apply name p.nodes = some nodes) :
    g.changeNode gid name action =
      .changed (.ok ⟨gid, nodes⟩) (g.withParticipant gid { p with nodes })
        (.participantChanged gid) := by
  simp only [changeNode, hpresent, hnodes]

theorem reply_changeNode_eq_ok_iff {s : Snapshot} :
    (g.perform (.changeNode gid name action)).reply = .snapshot (.ok s) ↔
      ∃ p nodes, g.participants[gid]? = some p ∧ action.apply name p.nodes = some nodes ∧
        s = ⟨gid, nodes⟩ := by
  rw [perform]
  cases hpresent : g.participants[gid]? with
  | none =>
      rw [g.changeNode_of_absent hpresent]
      simp [Change.map, Change.reply]
  | some p =>
      cases hnodes : action.apply name p.nodes with
      | none =>
          rw [g.changeNode_of_unnamed hpresent hnodes]
          simp [Change.map, Change.reply, hnodes]
      | some nodes =>
          rw [g.changeNode_of_named hpresent hnodes]
          simp [Change.map, Change.reply, hnodes, eq_comm]

end changeNode

theorem getElem?_participants_after (op : Operation) :
    (g.after op).participants[gid]? = op.onParticipant gid g.participants[gid]? := by
  cases op with
  | addParticipant i enclave =>
      have hafter : g.after (.addParticipant i enclave) =
          g.withParticipant i { g.participantOrEmpty i with enclave } := rfl
      rw [hafter, getElem?_withParticipant, Operation.onParticipant]
      by_cases hi : i = gid
      · rw [if_pos hi, if_pos hi.symm, hi]
        rfl
      · rw [if_neg hi, if_neg (Ne.symm hi)]
  | removeParticipant i =>
      rw [after_removeParticipant, Operation.onParticipant]
      by_cases hpresent : i ∈ g.participants
      · rw [if_pos hpresent, getElem?_erase_gid]
      · rw [if_neg hpresent]
        by_cases hi : i = gid
        · rw [if_pos hi, ← hi]
          exact Std.ExtTreeMap.getElem?_eq_none hpresent
        · rw [if_neg hi]
  | changeNode i name action =>
      rw [after, perform, Operation.onParticipant]
      cases hpresent : g.participants[i]? with
      | none =>
          rw [g.changeNode_of_absent hpresent]
          by_cases hi : i = gid
          · rw [if_pos hi, ← hi, hpresent]
            exact hpresent
          · rw [if_neg hi]
            rfl
      | some p =>
          cases hnodes : action.apply name p.nodes with
          | none =>
              rw [g.changeNode_of_unnamed hpresent hnodes]
              by_cases hi : i = gid
              · rw [if_pos hi, ← hi, hpresent, Option.map_some, hnodes]
                exact hpresent
              · rw [if_neg hi]
                rfl
          | some nodes =>
              rw [g.changeNode_of_named hpresent hnodes, Change.map, Change.graph,
                getElem?_withParticipant]
              by_cases hi : i = gid
              · rw [if_pos hi, if_pos hi.symm, ← hi, hpresent, Option.map_some, hnodes]
                rfl
              · rw [if_neg hi, if_neg (Ne.symm hi)]
  | update s =>
      have hafter : g.after (.update s) = g.withParticipant s.participant
          { g.participantOrEmpty s.participant with nodes := s.nodes } := rfl
      rw [hafter, getElem?_withParticipant, Operation.onParticipant]
      by_cases hs : s.participant = gid
      · rw [if_pos hs, if_pos hs.symm, hs]
        rfl
      · rw [if_neg hs, if_neg (Ne.symm hs)]
  | addEntity k i e =>
      rw [participants_after_of_kind? g (by simp [Operation.kind?])]
      rfl
  | removeEntity k i =>
      rw [participants_after_of_kind? g (by simp [Operation.kind?])]
      rfl

end Graph

end DiscoveryGraph
