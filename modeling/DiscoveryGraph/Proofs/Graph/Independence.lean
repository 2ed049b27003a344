import DiscoveryGraph.Proofs.Graph.Entries

/-!
# Operations that do not meet

Every operation is about one entry of the graph.  It changes that entry only, and both
what it makes of the entry and its reply follow from the entry alone.  So two operations
that are about different entries can change places: each replies as it would without the
other, and the graph afterwards is the same.
-/

namespace DiscoveryGraph

namespace Operation

/-- The operation is about the entity of a kind under a gid or, if no kind is given,
about the participant under the gid. -/
def About (kind? : Option EndpointKind) (gid : Gid) (op : Operation) : Prop :=
  op.kind? = kind? ∧ op.gid = gid

instance (kind? : Option EndpointKind) (gid : Gid) (op : Operation) :
    Decidable (op.About kind? gid) :=
  inferInstanceAs (Decidable (_ ∧ _))

/-- The operations are about different entities or about different participants, or one
is about an entity and the other about a participant. -/
def Independent (a b : Operation) : Prop := a.kind? ≠ b.kind? ∨ a.gid ≠ b.gid

instance (a b : Operation) : Decidable (a.Independent b) :=
  inferInstanceAs (Decidable (_ ∨ _))

variable {a b op : Operation} {kind : EndpointKind} {kind? : Option EndpointKind} {gid : Gid}

theorem not_about_iff_independent : ¬ a.About b.kind? b.gid ↔ a.Independent b :=
  Classical.not_and_iff_not_or_not

theorem Independent.symm (h : a.Independent b) : b.Independent a :=
  h.imp Ne.symm Ne.symm

/-- No entry is what both of two independent operations are about. -/
theorem Independent.not_about_or (h : a.Independent b) (kind? : Option EndpointKind)
    (gid : Gid) : ¬ a.About kind? gid ∨ ¬ b.About kind? gid := by
  by_cases hb : b.About kind? gid
  · obtain ⟨rfl, rfl⟩ := hb
    exact .inl (not_about_iff_independent.mpr h)
  · exact .inr hb

theorem onEntity_of_not_about (h : ¬ op.About (some kind) gid) (e? : Option Entity) :
    op.onEntity kind gid e? = e? := by
  cases op with
  | addEntity k i e =>
      have hkey : ¬ (k = kind ∧ i = gid) := fun hkey => h ⟨congrArg some hkey.1, hkey.2⟩
      rw [onEntity, if_neg hkey]
  | removeEntity k i =>
      have hkey : ¬ (k = kind ∧ i = gid) := fun hkey => h ⟨congrArg some hkey.1, hkey.2⟩
      rw [onEntity, if_neg hkey]
  | _ => rfl

theorem onParticipant_of_not_about (h : ¬ op.About none gid) (p? : Option Participant) :
    op.onParticipant gid p? = p? := by
  cases op with
  | addEntity k i e => rfl
  | removeEntity k i => rfl
  | addParticipant i enclave => exact if_neg fun hi => h ⟨rfl, hi⟩
  | removeParticipant i => exact if_neg fun hi => h ⟨rfl, hi⟩
  | changeNode i name action => exact if_neg fun hi => h ⟨rfl, hi⟩
  | update s => exact if_neg fun hs => h ⟨rfl, hs⟩

end Operation

namespace Graph

/-- The graphs have the same entity of a kind under a gid or, if no kind is given, the same
participant under the gid. -/
def AgreeOn (kind? : Option EndpointKind) (gid : Gid) (g h : Graph) : Prop :=
  match kind? with
  | some kind => (g.entities kind)[gid]? = (h.entities kind)[gid]?
  | none => g.participants[gid]? = h.participants[gid]?

variable {g h k : Graph} {kind? : Option EndpointKind} {gid : Gid} {a b op : Operation}

theorem AgreeOn.refl (g : Graph) : AgreeOn kind? gid g g := by
  cases kind? <;> rfl

theorem AgreeOn.symm (hgh : AgreeOn kind? gid g h) : AgreeOn kind? gid h g := by
  cases kind? <;> exact Eq.symm hgh

theorem AgreeOn.trans (hgh : AgreeOn kind? gid g h) (hhk : AgreeOn kind? gid h k) :
    AgreeOn kind? gid g k := by
  cases kind? <;> exact Eq.trans hgh hhk

theorem eq_of_agreeOn (hall : ∀ kind? gid, AgreeOn kind? gid g h) : g = h := by
  apply Graph.ext
  · exact Std.ExtTreeMap.ext_getElem? (hall (some .publisher))
  · exact Std.ExtTreeMap.ext_getElem? (hall (some .subscription))
  · exact Std.ExtTreeMap.ext_getElem? (hall none)

/-- What an operation makes of an entry follows from the entry. -/
theorem AgreeOn.after (hgh : AgreeOn kind? gid g h) (op : Operation) :
    AgreeOn kind? gid (g.after op) (h.after op) := by
  cases kind? with
  | some kind =>
      have hentity : (g.entities kind)[gid]? = (h.entities kind)[gid]? := hgh
      simp only [AgreeOn, getElem?_entities_after, hentity]
  | none =>
      have hparticipant : g.participants[gid]? = h.participants[gid]? := hgh
      simp only [AgreeOn, getElem?_participants_after, hparticipant]

theorem agreeOn_after_of_not_about (hop : ¬ op.About kind? gid) (g : Graph) :
    AgreeOn kind? gid (g.after op) g := by
  cases kind? with
  | some kind =>
      exact (g.getElem?_entities_after kind gid op).trans (Operation.onEntity_of_not_about hop _)
  | none =>
      exact (g.getElem?_participants_after gid op).trans
        (Operation.onParticipant_of_not_about hop _)

theorem reply_removeParticipant (g : Graph) (gid : Gid) :
    (g.perform (.removeParticipant gid)).reply = .flag (decide (gid ∈ g.participants)) := by
  by_cases hpresent : gid ∈ g.participants <;>
    simp [perform, removeParticipant, hpresent, Change.map, Change.reply]

theorem mem_congr {value : Type} {m n : GidMap value} (hentry : m[gid]? = n[gid]?) :
    gid ∈ m ↔ gid ∈ n := by
  rw [← Std.ExtTreeMap.isSome_getElem?_iff_mem, hentry, Std.ExtTreeMap.isSome_getElem?_iff_mem]

/-- The reply to an operation follows from the entry that the operation is about. -/
theorem AgreeOn.reply_eq (hgh : AgreeOn op.kind? op.gid g h) :
    (g.perform op).reply = (h.perform op).reply := by
  cases op with
  | addEntity kind gid e =>
      have hentry : (g.entities kind)[gid]? = (h.entities kind)[gid]? := hgh
      simp only [reply_addEntity, mem_congr hentry]
  | removeEntity kind gid =>
      have hentry : (g.entities kind)[gid]? = (h.entities kind)[gid]? := hgh
      simp only [reply_removeEntity, mem_congr hentry]
  | addParticipant gid enclave => rfl
  | removeParticipant gid =>
      have hentry : g.participants[gid]? = h.participants[gid]? := hgh
      simp only [reply_removeParticipant, mem_congr hentry]
  | changeNode gid name action =>
      have hentry : g.participants[gid]? = h.participants[gid]? := hgh
      rw [perform, perform]
      cases hpresent : h.participants[gid]? with
      | none =>
          rw [hpresent] at hentry
          rw [g.changeNode_of_absent hentry, h.changeNode_of_absent hpresent]
      | some p =>
          rw [hpresent] at hentry
          cases hnodes : action.apply name p.nodes with
          | none =>
              rw [g.changeNode_of_unnamed hentry hnodes, h.changeNode_of_unnamed hpresent hnodes]
          | some nodes =>
              rw [g.changeNode_of_named hentry hnodes, h.changeNode_of_named hpresent hnodes]
              rfl
  | update s => rfl

/-- An operation replies as it would without an independent one before it. -/
theorem reply_after_of_independent (hab : a.Independent b) (g : Graph) :
    ((g.after a).perform b).reply = (g.perform b).reply :=
  (agreeOn_after_of_not_about (Operation.not_about_iff_independent.mpr hab) g).reply_eq

theorem after_comm_of_independent (hab : a.Independent b) (g : Graph) :
    (g.after a).after b = (g.after b).after a := by
  apply eq_of_agreeOn
  intro kind? gid
  -- An entry that one of the two is not about is left to the other, wherever that one stands.
  rcases hab.not_about_or kind? gid with ha | hb
  · have hleft : AgreeOn kind? gid ((g.after a).after b) (g.after b) :=
      (agreeOn_after_of_not_about ha g).after b
    exact hleft.trans (agreeOn_after_of_not_about ha (g.after b)).symm
  · have hright : AgreeOn kind? gid ((g.after b).after a) (g.after a) :=
      (agreeOn_after_of_not_about hb g).after a
    exact (agreeOn_after_of_not_about hb (g.after a)).trans hright.symm

end Graph

end DiscoveryGraph
