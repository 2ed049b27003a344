import DiscoveryGraph.Proofs.Cache.Histories

/-!
# The history of a participant

What a graph knows about a participant is what its history says since the participant
was last removed.  The enclave is the one that was set last.  The nodes are those of
the last snapshot, with the later calls that succeeded applied to them.  Neither of
the two disturbs the other.
-/

namespace DiscoveryGraph

namespace Operation

variable (gid : Gid)

/-- The enclave that the operation gives to a participant. -/
def enclave? : Operation → Option String
  | addParticipant i enclave => if i = gid then some enclave else none
  | _ => none

/-- The nodes that the operation reports of a participant. -/
def reported? : Operation → Option (List Node)
  | update s => if s.participant = gid then some s.nodes else none
  | _ => none

/-- The operation makes sure that the participant is known. -/
def Enters (op : Operation) : Prop :=
  (∃ enclave, op = .addParticipant gid enclave) ∨ ∃ nodes, op = .update ⟨gid, nodes⟩

variable {gid} {op : Operation}

theorem enters_iff :
    op.Enters gid ↔ (op.enclave? gid).isSome = true ∨ (op.reported? gid).isSome = true := by
  cases op with
  | addParticipant i enclave => by_cases hi : i = gid <;> simp [Enters, enclave?, reported?, hi]
  | update s =>
      obtain ⟨i, nodes⟩ := s
      by_cases hi : i = gid <;> simp [Enters, enclave?, reported?, hi]
  | _ => simp [Enters, enclave?, reported?]

theorem isSome_onParticipant_iff (hop : op ≠ .removeParticipant gid) (p? : Option Participant) :
    (op.onParticipant gid p?).isSome = true ↔ p?.isSome = true ∨ op.Enters gid := by
  rw [enters_iff]
  cases op with
  | addParticipant i enclave =>
      by_cases hi : i = gid <;> simp [onParticipant, enclave?, reported?, hi]
  | removeParticipant i =>
      have hi : i ≠ gid := fun hi => hop (congrArg removeParticipant hi)
      simp [onParticipant, enclave?, reported?, hi]
  | changeNode i name action =>
      by_cases hi : i = gid <;> simp [onParticipant, enclave?, reported?, hi]
  | update s => by_cases hs : s.participant = gid <;> simp [onParticipant, enclave?, reported?, hs]
  | _ => simp [onParticipant, enclave?, reported?]

theorem enclave_onParticipant (hop : op ≠ .removeParticipant gid) (p? : Option Participant) :
    ((op.onParticipant gid p?).getD .empty).enclave =
      (op.enclave? gid).getD (p?.getD .empty).enclave := by
  cases op with
  | addParticipant i enclave => by_cases hi : i = gid <;> simp [onParticipant, enclave?, hi]
  | removeParticipant i =>
      have hi : i ≠ gid := fun hi => hop (congrArg removeParticipant hi)
      simp [onParticipant, enclave?, hi]
  | changeNode i name action =>
      by_cases hi : i = gid
      · cases p? <;> simp [onParticipant, enclave?, hi]
      · simp [onParticipant, enclave?, hi]
  | update s => by_cases hs : s.participant = gid <;> simp [onParticipant, enclave?, hs]
  | _ => simp [onParticipant, enclave?]

theorem nodes_onParticipant_of_reported {nodes : List Node} (h : op.reported? gid = some nodes)
    (p? : Option Participant) : ((op.onParticipant gid p?).getD .empty).nodes = nodes := by
  cases op with
  | update s =>
      obtain ⟨hs, hnodes⟩ := Option.ite_none_right_eq_some.mp h
      rw [onParticipant, if_pos hs]
      exact Option.some.inj hnodes
  | _ => contradiction

end Operation

/-- The action on a node of a participant, if it succeeded. -/
def Exchange.call? (gid : Gid) : Exchange → Option NodeCall
  | ⟨.changeNode i name action, .snapshot (.ok _)⟩ => if i = gid then some ⟨name, action⟩ else none
  | _ => none

theorem Exchange.call?_eq_some_iff {gid : Gid} {x : Exchange} {call : NodeCall} :
    x.call? gid = some call ↔
      x.op = .changeNode gid call.name call.action ∧ ∃ s, x.reply = .snapshot (.ok s) := by
  obtain ⟨op, reply⟩ := x
  obtain ⟨name, action⟩ := call
  unfold Exchange.call?
  split
  · next i n a s hx =>
      obtain ⟨rfl, rfl⟩ := Exchange.mk.inj hx
      simp
  · next hx =>
      constructor
      · intro h
        contradiction
      · rintro ⟨rfl, s, rfl⟩
        exact absurd rfl (hx gid name action s)

/-- The enclave that was last given to the participant. -/
def enclaveIn (gid : Gid) (recent : List Exchange) : String :=
  (recent.filterMap (·.op.enclave? gid)).getLast?.getD ""

/-- The nodes that were last reported of the participant. -/
def reportedIn (gid : Gid) (recent : List Exchange) : List Node :=
  (recent.filterMap (·.op.reported? gid)).getLast?.getD []

/-- The calls that succeeded since nodes of the participant were last reported. -/
def callsIn (gid : Gid) (recent : List Exchange) : List NodeCall :=
  (afterLast (fun x => (x.op.reported? gid).isSome) recent).filterMap (·.call? gid)

theorem enclaveIn_concat (gid : Gid) (recent : List Exchange) (x : Exchange) :
    enclaveIn gid (recent ++ [x]) = (x.op.enclave? gid).getD (enclaveIn gid recent) := by
  rw [enclaveIn, List.filterMap_append, List.getLast?_append]
  cases h : x.op.enclave? gid <;> simp [h, enclaveIn]

theorem reportedIn_concat (gid : Gid) (recent : List Exchange) (x : Exchange) :
    reportedIn gid (recent ++ [x]) = (x.op.reported? gid).getD (reportedIn gid recent) := by
  rw [reportedIn, List.filterMap_append, List.getLast?_append]
  cases h : x.op.reported? gid <;> simp [h, reportedIn]

theorem callsIn_concat (gid : Gid) (recent : List Exchange) (x : Exchange) :
    callsIn gid (recent ++ [x]) =
      if (x.op.reported? gid).isSome = true then []
      else callsIn gid recent ++ (x.call? gid).toList := by
  rw [callsIn, afterLast_concat]
  by_cases h : (x.op.reported? gid).isSome = true
  · rw [if_pos h, if_pos h]
    rfl
  · rw [if_neg h, if_neg h, List.filterMap_append]
    cases hcall : x.call? gid <;> simp [hcall, callsIn]

namespace Graph

variable {g : Graph} {gid : Gid} {op : Operation}

theorem participantOrEmpty_after (g : Graph) (op : Operation) (gid : Gid) :
    (g.after op).participantOrEmpty gid =
      (op.onParticipant gid g.participants[gid]?).getD .empty := by
  rw [participantOrEmpty, getElem?_participants_after]

/-- A call that succeeded has acted on the nodes. -/
theorem acts_of_call? {call : NodeCall}
    (h : (⟨op, (g.perform op).reply⟩ : Exchange).call? gid = some call) :
    Acts call.name (g.participantOrEmpty gid).nodes call.action
      ((g.after op).participantOrEmpty gid).nodes := by
  obtain ⟨hop, s, hreply⟩ := Exchange.call?_eq_some_iff.mp h
  obtain rfl : op = .changeNode gid call.name call.action := hop
  obtain ⟨p, nodes, hpresent, hnodes, -⟩ := g.reply_changeNode_eq_ok_iff.mp hreply
  have hbefore : g.participantOrEmpty gid = p := by rw [participantOrEmpty, hpresent]; rfl
  have hafter : (g.after (.changeNode gid call.name call.action)).participantOrEmpty gid =
      { p with nodes } := by
    rw [participantOrEmpty_after, Operation.onParticipant, if_pos rfl, hpresent]
    simp only [Option.map_some, hnodes, Option.getD_some]
  rw [hbefore, hafter]
  exact NodeAction.apply_eq_some_iff.mp hnodes

/-- Nodes are kept unless they are reported, the participant is removed, or a call
succeeds. -/
theorem nodes_after_of_call?_eq_none (hremove : op ≠ .removeParticipant gid)
    (hreported : op.reported? gid = none)
    (hcall : (⟨op, (g.perform op).reply⟩ : Exchange).call? gid = none) :
    ((g.after op).participantOrEmpty gid).nodes = (g.participantOrEmpty gid).nodes := by
  rw [participantOrEmpty_after, participantOrEmpty]
  cases op with
  | addParticipant i enclave => by_cases hi : i = gid <;> simp [Operation.onParticipant, hi]
  | removeParticipant i =>
      have hi : i ≠ gid := fun hi => hremove (congrArg Operation.removeParticipant hi)
      simp [Operation.onParticipant, hi]
  | changeNode i name action =>
      by_cases hi : i = gid
      · rw [Operation.onParticipant, if_pos hi, ← hi]
        cases hpresent : g.participants[i]? with
        | none => rfl
        | some p =>
            cases hnodes : action.apply name p.nodes with
            | none => simp [hnodes]
            | some nodes =>
                have hreply := g.reply_changeNode_eq_ok_iff.mpr ⟨p, nodes, hpresent, hnodes, rfl⟩
                have hop : Operation.changeNode i name action = .changeNode gid name action := by
                  rw [hi]
                have hsome : Exchange.call? gid ⟨.changeNode i name action,
                    (g.perform (.changeNode i name action)).reply⟩ = some ⟨name, action⟩ :=
                  Exchange.call?_eq_some_iff.mpr ⟨hop, _, hreply⟩
                rw [hcall] at hsome
                contradiction
      · simp [Operation.onParticipant, hi]
  | update s =>
      have hs : s.participant ≠ gid := by
        intro hs
        simp [Operation.reported?, hs] at hreported
      simp [Operation.onParticipant, hs]
  | _ => rfl

end Graph

/-- The entry of a participant is what its history since its last removal says. -/
structure Account (gid : Gid) (recent : List Exchange) (g : Graph) : Prop where
  mem_iff : gid ∈ g.participants ↔ ∃ x ∈ recent, x.op.Enters gid
  enclave_eq : (g.participantOrEmpty gid).enclave = enclaveIn gid recent
  replay_iff : ∀ nodes, Replay (callsIn gid recent) (reportedIn gid recent) nodes ↔
    nodes = (g.participantOrEmpty gid).nodes

namespace Account

variable {gid : Gid} {recent : List Exchange} {g : Graph} {op : Operation}

theorem of_absent (habsent : g.participants[gid]? = none) : Account gid [] g where
  mem_iff := by
    rw [← Std.ExtTreeMap.isSome_getElem?_iff_mem, habsent]
    simp
  enclave_eq := by
    rw [Graph.participantOrEmpty, habsent]
    rfl
  replay_iff nodes := by
    rw [Graph.participantOrEmpty, habsent]
    rfl

theorem concat (h : Account gid recent g) (hremove : op ≠ .removeParticipant gid) :
    Account gid (recent ++ [⟨op, (g.perform op).reply⟩]) (g.after op) where
  mem_iff := by
    have hmem := h.mem_iff
    rw [← Std.ExtTreeMap.isSome_getElem?_iff_mem] at hmem ⊢
    rw [Graph.getElem?_participants_after, Operation.isSome_onParticipant_iff hremove, hmem]
    simp [or_and_right, exists_or]
  enclave_eq := by
    rw [Graph.participantOrEmpty_after, Operation.enclave_onParticipant hremove,
      enclaveIn_concat, ← h.enclave_eq]
    rfl
  replay_iff nodes := by
    -- A report starts the replay anew, and a call that succeeded makes it longer by one
    -- action.  Any other operation changes neither the replay nor the nodes.
    rw [callsIn_concat, reportedIn_concat]
    cases hreported : op.reported? gid with
    | some reported =>
        rw [Graph.participantOrEmpty_after, Operation.nodes_onParticipant_of_reported hreported]
        rfl
    | none =>
        cases hcall : (⟨op, (g.perform op).reply⟩ : Exchange).call? gid with
        | none =>
            rw [Graph.nodes_after_of_call?_eq_none hremove hreported hcall, ← h.replay_iff]
            simp
        | some call =>
            have hacts := NodeAction.apply_eq_some_iff.mpr (Graph.acts_of_call? hcall)
            simp only [Option.isSome_none, Bool.false_eq_true, if_false, Option.toList_some,
              Option.getD_none, replay_concat_iff, h.replay_iff, exists_eq_left]
            rw [← NodeAction.apply_eq_some_iff, hacts, Option.some_inj, eq_comm]

end Account

namespace Cache

theorem account_run (steps : List Step) (gid : Gid) :
    Account gid (afterLast (·.op = .removeParticipant gid) (empty.exchanges steps))
      (empty.run steps).graph := by
  refine history_induction (P := fun history g =>
    Account gid (afterLast (·.op = .removeParticipant gid) history) g) ?_ ?_ steps
  · exact .of_absent Std.ExtTreeMap.getElem?_empty
  · intro history g op ih
    rw [afterLast_concat]
    by_cases hremove : op = .removeParticipant gid
    · have habsent : (g.after op).participants[gid]? = none := by
        rw [Graph.getElem?_participants_after, hremove, Operation.onParticipant, if_pos rfl]
      simp only [hremove, decide_true, if_true]
      rw [hremove] at habsent
      exact .of_absent habsent
    · simp only [hremove, decide_false, Bool.false_eq_true, if_false]
      exact ih.concat hremove

theorem snapshot?_perform_changeNode {c : Cache} {gid : Gid} {name : NodeName}
    {action : NodeAction} {s : Snapshot}
    (h : (c.perform (.changeNode gid name action)).1 = .snapshot (.ok s)) :
    (c.perform (.changeNode gid name action)).2.graph.snapshot? gid = some s := by
  rw [fst_perform] at h
  obtain ⟨p, nodes, hpresent, hnodes, rfl⟩ := c.graph.reply_changeNode_eq_ok_iff.mp h
  have hentry : (c.perform (.changeNode gid name action)).2.graph.participants[gid]? =
      some { p with nodes } := by
    rw [graph_perform, ← Graph.after, Graph.getElem?_participants_after,
      Operation.onParticipant, if_pos rfl, hpresent]
    simp only [Option.map_some, hnodes, Option.getD_some]
  rw [Graph.snapshot?, hentry]
  rfl

/-- After every run: a participant is known exactly if it was added or reported after
it was last removed.  Its enclave is the one that it was given last since then, and
its nodes are those of its last snapshot since then with the later calls that
succeeded replayed on them, each on the first node of its name.  A call that succeeds
answers with the snapshot of the participant right after it. -/
theorem participant_of_history (steps : List Step) (gid : Gid) :
    let c := empty.run steps
    let recent := afterLast (·.op = .removeParticipant gid) (empty.exchanges steps)
    (gid ∈ c.graph.participants ↔ ∃ x ∈ recent, x.op.Enters gid) ∧
      (∀ p, c.graph.participants[gid]? = some p →
        p.enclave = enclaveIn gid recent ∧
          ∀ nodes, Replay (callsIn gid recent) (reportedIn gid recent) nodes ↔
            nodes = p.nodes) ∧
      ∀ name action s, (c.perform (.changeNode gid name action)).1 = .snapshot (.ok s) →
        (c.perform (.changeNode gid name action)).2.graph.snapshot? gid = some s := by
  intro c recent
  have haccount : Account gid recent c.graph := account_run steps gid
  refine ⟨haccount.mem_iff, ?_, ?_⟩
  · intro p hp
    have hentry : c.graph.participantOrEmpty gid = p := by rw [Graph.participantOrEmpty, hp]; rfl
    rw [← hentry]
    exact ⟨haccount.enclave_eq, haccount.replay_iff⟩
  · intro name action s hs
    exact snapshot?_perform_changeNode hs

end Cache

end DiscoveryGraph
