import DiscoveryGraph.Graph.Change

/-!
# Acting on the nodes of a participant

Names of nodes may repeat.  An action that needs a node of its name takes the
first one and leaves the nodes before and after it alone; it fails exactly if
there is none.  Adding a node never fails.
-/

namespace DiscoveryGraph

/-- `n` is the first of the nodes that have the name, `before` are the nodes before
it, and `after` those after it. -/
structure FirstNamed (name : NodeName) (nodes before : List Node) (n : Node)
    (after : List Node) : Prop where
  nodes_eq : nodes = before ++ n :: after
  name_eq : n.toNodeName = name
  name_ne : ∀ m ∈ before, m.toNodeName ≠ name

variable {name : NodeName} {nodes next before after : List Node} {action : NodeAction}
  {m n : Node}

theorem firstNamed_nil : ¬ FirstNamed name [] before n after := by
  intro h
  have hnil := h.nodes_eq
  simp at hnil

theorem firstNamed_cons_of_eq (hm : m.toNodeName = name) :
    FirstNamed name (m :: nodes) before n after ↔ before = [] ∧ n = m ∧ after = nodes := by
  constructor
  · intro h
    cases before with
    | nil =>
        obtain ⟨hn, hafter⟩ := List.cons.inj h.nodes_eq
        exact ⟨rfl, hn.symm, hafter.symm⟩
    | cons b before =>
        have hb : m = b := (List.cons.inj h.nodes_eq).1
        rw [hb] at hm
        exact absurd hm (h.name_ne b List.mem_cons_self)
  · rintro ⟨rfl, rfl, rfl⟩
    exact ⟨rfl, hm, by simp⟩

theorem firstNamed_cons_of_ne (hm : m.toNodeName ≠ name) :
    FirstNamed name (m :: nodes) before n after ↔
      ∃ others, before = m :: others ∧ FirstNamed name nodes others n after := by
  constructor
  · intro h
    cases before with
    | nil =>
        have hn : m = n := (List.cons.inj h.nodes_eq).1
        rw [hn] at hm
        exact absurd h.name_eq hm
    | cons b others =>
        obtain ⟨hb, hnodes⟩ := List.cons.inj h.nodes_eq
        refine ⟨others, by rw [hb], hnodes, h.name_eq, ?_⟩
        intro other hother
        exact h.name_ne other (List.mem_cons_of_mem b hother)
  · rintro ⟨others, rfl, h⟩
    refine ⟨by rw [h.nodes_eq, List.cons_append], h.name_eq, ?_⟩
    intro other hother
    rcases List.mem_cons.mp hother with heq | hmem
    · rw [heq]
      exact hm
    · exact h.name_ne other hmem

theorem replaceNode_eq_some_iff {f : Node → List Node} :
    replaceNode name f nodes = some next ↔
      ∃ before n after, FirstNamed name nodes before n after ∧
        next = before ++ f n ++ after := by
  induction nodes generalizing next with
  | nil => simp [replaceNode, firstNamed_nil]
  | cons m rest ih =>
      rw [replaceNode]
      by_cases hm : m.toNodeName = name
      · rw [if_pos hm, Option.some_inj]
        simp only [firstNamed_cons_of_eq hm]
        constructor
        · intro hnext
          exact ⟨[], m, rest, ⟨rfl, rfl, rfl⟩, hnext.symm⟩
        · rintro ⟨_, _, _, ⟨rfl, rfl, rfl⟩, hnext⟩
          exact hnext.symm
      · rw [if_neg hm, Option.map_eq_some_iff]
        simp only [firstNamed_cons_of_ne hm]
        constructor
        · rintro ⟨others, hothers, hnext⟩
          obtain ⟨before, n, after, hfirst, rfl⟩ := ih.mp hothers
          exact ⟨m :: before, n, after, ⟨before, rfl, hfirst⟩, hnext.symm⟩
        · rintro ⟨_, n, after, ⟨before, rfl, hfirst⟩, hnext⟩
          exact ⟨before ++ f n ++ after, ih.mpr ⟨before, n, after, hfirst, rfl⟩, hnext.symm⟩

theorem replaceNode_eq_none_iff {f : Node → List Node} :
    replaceNode name f nodes = none ↔ ∀ n ∈ nodes, n.toNodeName ≠ name := by
  induction nodes with
  | nil => simp [replaceNode]
  | cons m rest ih =>
      rw [replaceNode]
      by_cases hm : m.toNodeName = name
      · simp [hm]
      · simp [hm, ih]

theorem FirstNamed.replace (h : FirstNamed name nodes before n after)
    (hname : m.toNodeName = n.toNodeName) :
    FirstNamed name (before ++ m :: after) before m after where
  nodes_eq := rfl
  name_eq := hname.trans h.name_eq
  name_ne := h.name_ne

theorem exists_firstNamed (h : ∃ n ∈ nodes, n.toNodeName = name) :
    ∃ before n after, FirstNamed name nodes before n after := by
  cases hremoved : replaceNode name (fun _ => []) nodes with
  | none =>
      obtain ⟨n, hn, hname⟩ := h
      exact absurd hname (replaceNode_eq_none_iff.mp hremoved n hn)
  | some next =>
      obtain ⟨before, n, after, hfirst, -⟩ := replaceNode_eq_some_iff.mp hremoved
      exact ⟨before, n, after, hfirst⟩

/-! ## What an action does -/

/-- `Acts name nodes action next` says that the action on the name leads from `nodes`
to `next`. -/
inductive Acts (name : NodeName) (nodes : List Node) : NodeAction → List Node → Prop
  | add : Acts name nodes .add (nodes ++ [.ofName name])
  | remove {before after : List Node} {n : Node} (h : FirstNamed name nodes before n after) :
      Acts name nodes .remove (before ++ after)
  | associate {before after : List Node} {n : Node} (kind : EndpointKind) (endpoint : Gid)
      (h : FirstNamed name nodes before n after) :
      Acts name nodes (.associate kind endpoint)
        (before ++ n.mapEndpoints kind (· ++ [endpoint]) :: after)
  | dissociate {before after : List Node} {n : Node} (kind : EndpointKind) (endpoint : Gid)
      (h : FirstNamed name nodes before n after) :
      Acts name nodes (.dissociate kind endpoint)
        (before ++ n.mapEndpoints kind (·.erase endpoint) :: after)

theorem NodeAction.apply_eq_some_iff :
    action.apply name nodes = some next ↔ Acts name nodes action next := by
  constructor
  · intro h
    cases action with
    | add =>
        obtain rfl := Option.some.inj h
        exact .add
    | remove =>
        obtain ⟨before, n, after, hfirst, rfl⟩ := replaceNode_eq_some_iff.mp h
        rw [List.append_nil]
        exact .remove hfirst
    | associate kind endpoint =>
        obtain ⟨before, n, after, hfirst, rfl⟩ := replaceNode_eq_some_iff.mp h
        rw [List.append_assoc]
        exact .associate kind endpoint hfirst
    | dissociate kind endpoint =>
        obtain ⟨before, n, after, hfirst, rfl⟩ := replaceNode_eq_some_iff.mp h
        rw [List.append_assoc]
        exact .dissociate kind endpoint hfirst
  · intro h
    cases h with
    | add => rfl
    | remove hfirst => exact replaceNode_eq_some_iff.mpr ⟨_, _, _, hfirst, by simp⟩
    | associate kind endpoint hfirst =>
        exact replaceNode_eq_some_iff.mpr ⟨_, _, _, hfirst, by simp⟩
    | dissociate kind endpoint hfirst =>
        exact replaceNode_eq_some_iff.mpr ⟨_, _, _, hfirst, by simp⟩

theorem NodeAction.apply_eq_none_iff :
    action.apply name nodes = none ↔ action ≠ .add ∧ ∀ n ∈ nodes, n.toNodeName ≠ name := by
  cases action with
  | add => simp [apply]
  | _ => simp [apply, replaceNode_eq_none_iff]

theorem NodeAction.exists_acts (h : action = .add ∨ ∃ n ∈ nodes, n.toNodeName = name) :
    ∃ next, Acts name nodes action next := by
  have hsome : action.apply name nodes ≠ none := by
    intro hnone
    obtain ⟨hadd, hname⟩ := apply_eq_none_iff.mp hnone
    rcases h with hadd' | ⟨n, hn, hn'⟩
    · exact hadd hadd'
    · exact hname n hn hn'
  obtain ⟨next, hnext⟩ := Option.ne_none_iff_exists'.mp hsome
  exact ⟨next, apply_eq_some_iff.mp hnext⟩

/-! ## Several actions -/

/-- An action on the node of a name. -/
structure NodeCall where
  name : NodeName
  action : NodeAction

/-- The calls, one after the other, lead from the nodes `start` to the nodes `last`. -/
def Replay : List NodeCall → List Node → List Node → Prop
  | [], start, last => last = start
  | call :: calls, start, last =>
      ∃ next, Acts call.name start call.action next ∧ Replay calls next last

theorem replay_concat_iff {calls : List NodeCall} {call : NodeCall} {start last : List Node} :
    Replay (calls ++ [call]) start last ↔
      ∃ nodes, Replay calls start nodes ∧ Acts call.name nodes call.action last := by
  induction calls generalizing start with
  | nil => simp [Replay]
  | cons first calls ih =>
      simp only [List.cons_append, Replay, ih]
      constructor
      · rintro ⟨next, hfirst, nodes, hcalls, hcall⟩
        exact ⟨nodes, ⟨next, hfirst, hcalls⟩, hcall⟩
      · rintro ⟨nodes, ⟨next, hfirst, hcalls⟩, hcall⟩
        exact ⟨next, hfirst, nodes, hcalls, hcall⟩

end DiscoveryGraph
