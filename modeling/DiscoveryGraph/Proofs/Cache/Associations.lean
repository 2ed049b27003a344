import DiscoveryGraph.Proofs.Cache.Reordering
import DiscoveryGraph.Proofs.Graph.Nodes

/-!
# The associations of a node

Calls that associate endpoints with a node, or undo an association, all act on the first
node of its name.  What they leave there is a list in which each endpoint stands as often
as it was associated and not dissociated; undoing what is not there counts for nothing.
Calls about different endpoints do not meet: the others keep their order.  Everything
outside these two lists stays as it is.
-/

namespace DiscoveryGraph

/-- A call that associates an endpoint with a node or undoes one association. -/
inductive Link
  | associate (kind : EndpointKind) (endpoint : Gid)
  | dissociate (kind : EndpointKind) (endpoint : Gid)
  deriving DecidableEq

namespace Link

def kind : Link → EndpointKind
  | associate kind _ => kind
  | dissociate kind _ => kind

def endpoint : Link → Gid
  | associate _ endpoint => endpoint
  | dissociate _ endpoint => endpoint

def action : Link → NodeAction
  | associate kind endpoint => .associate kind endpoint
  | dissociate kind endpoint => .dissociate kind endpoint

/-- The call on the first node of a name of a participant. -/
def operation (gid : Gid) (name : NodeName) (l : Link) : Operation :=
  .changeNode gid name l.action

/-- What the call makes of a list of endpoints of its kind. -/
def apply (gids : List Gid) : Link → List Gid
  | associate _ endpoint => gids ++ [endpoint]
  | dissociate _ endpoint => gids.erase endpoint

/-- What the call makes of the node. -/
def onNode (n : Node) (l : Link) : Node := n.mapEndpoints l.kind fun gids => l.apply gids

/-- What the call makes of the number of times that an endpoint of a kind is associated:
one more or, unless there is none, one less. -/
def tally (kind : EndpointKind) (endpoint : Gid) (count : Nat) : Link → Nat
  | associate k e => if k = kind ∧ e = endpoint then count + 1 else count
  | dissociate k e => if k = kind ∧ e = endpoint then count - 1 else count

/-- Several calls turn the node `n` into `m`.  Each endpoint has been counted call by call.
Whatever endpoints one looks at, they stand as if there had been no calls but those about
them, so calls about others do not move them.  A kind without calls keeps its list. -/
structure Turns (links : List Link) (n m : Node) : Prop where
  name_eq : m.toNodeName = n.toNodeName
  count_eq : ∀ kind endpoint, (m.endpoints kind).count endpoint =
    links.foldl (tally kind endpoint) ((n.endpoints kind).count endpoint)
  filter_eq : ∀ kind (keep : Gid → Bool), (m.endpoints kind).filter keep =
    (links.filter fun l => l.kind = kind ∧ keep l.endpoint).foldl apply
      ((n.endpoints kind).filter keep)
  endpoints_eq : ∀ kind, (∀ l ∈ links, l.kind ≠ kind) → m.endpoints kind = n.endpoints kind

variable {links : List Link} {l : Link} {n : Node} {kind : EndpointKind} {endpoint : Gid}
  {keep : Gid → Bool}

/-! ## One call -/

theorem toNodeName_onNode (n : Node) (l : Link) : (l.onNode n).toNodeName = n.toNodeName := by
  unfold onNode
  cases l.kind <;> rfl

theorem endpoints_onNode (n : Node) (l : Link) (kind : EndpointKind) :
    (l.onNode n).endpoints kind =
      if l.kind = kind then l.apply (n.endpoints kind) else n.endpoints kind := by
  unfold onNode
  cases l.kind <;> cases kind <;> rfl

theorem count_apply (l : Link) (gids : List Gid) (endpoint : Gid) :
    (l.apply gids).count endpoint = l.tally l.kind endpoint (gids.count endpoint) := by
  cases l with
  | associate k e =>
      rw [apply, tally, Link.kind, List.count_append]
      by_cases he : e = endpoint
      · rw [if_pos ⟨rfl, he⟩, he, List.count_singleton_self]
      · have hnone : [e].count endpoint = 0 :=
          List.count_eq_zero_of_not_mem fun hmem => he (List.mem_singleton.mp hmem).symm
        rw [if_neg fun h => he h.2, hnone, Nat.add_zero]
  | dissociate k e =>
      rw [apply, tally, Link.kind]
      by_cases he : e = endpoint
      · rw [if_pos ⟨rfl, he⟩, he, List.count_erase_self]
      · rw [if_neg fun h => he h.2, List.count_erase_of_ne (Ne.symm he)]

theorem tally_of_kind_ne (hkind : l.kind ≠ kind) (count : Nat) :
    l.tally kind endpoint count = count := by
  cases l with
  | associate k e => exact if_neg fun h => hkind h.1
  | dissociate k e => exact if_neg fun h => hkind h.1

theorem count_onNode (n : Node) (l : Link) (kind : EndpointKind) (endpoint : Gid) :
    ((l.onNode n).endpoints kind).count endpoint =
      l.tally kind endpoint ((n.endpoints kind).count endpoint) := by
  rw [endpoints_onNode]
  by_cases hkind : l.kind = kind
  · rw [if_pos hkind, count_apply, hkind]
  · rw [if_neg hkind, tally_of_kind_ne hkind]

theorem acts {name : NodeName} {nodes before after : List Node} (l : Link)
    (h : FirstNamed name nodes before n after) :
    Acts name nodes l.action (before ++ l.onNode n :: after) := by
  cases l with
  | associate k e => exact .associate k e h
  | dissociate k e => exact .dissociate k e h

theorem filter_apply (hkeep : keep l.endpoint = true) (gids : List Gid) :
    (l.apply gids).filter keep = l.apply (gids.filter keep) := by
  cases l with
  | associate k e =>
      have he : [e].filter keep = [e] := List.filter_cons_of_pos hkeep
      rw [apply, apply, List.filter_append, he]
  | dissociate k e => exact List.erase_filter.symm

theorem filter_apply_of_not (hkeep : ¬ keep l.endpoint = true) (gids : List Gid) :
    (l.apply gids).filter keep = gids.filter keep := by
  cases l with
  | associate k e =>
      have he : [e].filter keep = [] := List.filter_cons_of_neg hkeep
      rw [apply, List.filter_append, he, List.append_nil]
  | dissociate k e =>
      have he : e ∉ gids.filter keep := fun hmem => hkeep (List.mem_filter.mp hmem).2
      rw [apply, ← List.erase_filter, List.erase_of_not_mem he]

/-! ## Several calls -/

theorem Turns.refl (n : Node) : Turns [] n n where
  name_eq := rfl
  count_eq _ _ := rfl
  filter_eq _ _ := rfl
  endpoints_eq _ _ := rfl

/-- What further calls do to the node that one call has left, all of them do together. -/
theorem Turns.cons {m : Node} (h : Turns links (l.onNode n) m) : Turns (l :: links) n m where
  name_eq := h.name_eq.trans (toNodeName_onNode n l)
  count_eq kind endpoint := by
    rw [h.count_eq, count_onNode, List.foldl_cons]
  filter_eq kind keep := by
    rw [h.filter_eq, endpoints_onNode, List.filter_cons]
    by_cases hkind : l.kind = kind
    · rw [if_pos hkind]
      by_cases hkeep : keep l.endpoint = true
      · rw [filter_apply hkeep, if_pos (by simp [hkind, hkeep]), List.foldl_cons]
      · rw [filter_apply_of_not hkeep, if_neg (by simp [hkeep])]
    · rw [if_neg hkind, if_neg (by simp [hkind])]
  endpoints_eq kind hother := by
    have hrest : ∀ other ∈ links, other.kind ≠ kind :=
      fun other hmem => hother other (List.mem_cons_of_mem l hmem)
    rw [h.endpoints_eq kind hrest, endpoints_onNode, if_neg (hother l List.mem_cons_self)]

theorem turns_foldl (links : List Link) (n : Node) : Turns links n (links.foldl onNode n) := by
  induction links generalizing n with
  | nil => exact .refl n
  | cons l links ih => exact .cons (ih (l.onNode n))

/-- An endpoint that is not associated with the node can be associated and dissociated
again, and nothing shows it. -/
theorem onNode_onNode_of_notMem (h : endpoint ∉ n.endpoints kind) :
    (dissociate kind endpoint).onNode ((associate kind endpoint).onNode n) = n := by
  have herase : (n.endpoints kind ++ [endpoint]).erase endpoint = n.endpoints kind := by
    rw [List.erase_append_right _ h, List.erase_cons_head, List.append_nil]
  cases kind with
  | publisher => exact congrArg (fun gids => { n with writers := gids }) herase
  | subscription => exact congrArg (fun gids => { n with readers := gids }) herase

end Link

namespace Cache

variable {c : Cache} {g : Graph} {gid : Gid} {name : NodeName} {p : Participant}
  {action : NodeAction} {next before after : List Node} {n : Node}

/-- All that a call changes is the list of nodes of its participant.  So a second call may
follow on the graph that the first one has left. -/
theorem graph_perform_changeNode (hgraph : c.graph = g.withParticipant gid p)
    (hacts : Acts name p.nodes action next) :
    (c.perform (.changeNode gid name action)).2.graph =
      g.withParticipant gid { p with nodes := next } := by
  have hp : c.graph.participants[gid]? = some p := by
    rw [hgraph, Graph.getElem?_withParticipant, if_pos rfl]
  have hnext : action.apply name p.nodes = some next := NodeAction.apply_eq_some_iff.mpr hacts
  rw [graph_perform, Graph.perform, c.graph.changeNode_of_named hp hnext, Change.map,
    Change.graph, hgraph, Graph.withParticipant_withParticipant]

/-- Any number of calls on a name act on the first node of that name. -/
theorem graph_performAll_links (links : List Link) (hgraph : c.graph = g.withParticipant gid p)
    (hfirst : FirstNamed name p.nodes before n after) :
    (c.performAll (links.map (Link.operation gid name))).graph =
      g.withParticipant gid { p with nodes := before ++ links.foldl Link.onNode n :: after } := by
  induction links generalizing c p n with
  | nil =>
      rw [List.foldl_nil, ← hfirst.nodes_eq]
      exact hgraph
  | cons l links ih =>
      have hstep := graph_perform_changeNode hgraph (l.acts hfirst)
      have hrest := ih hstep (hfirst.replace (l.toNodeName_onNode n))
      exact hrest

theorem graph_performAll_add_remove (hgraph : c.graph = g.withParticipant gid p)
    (hname : ∀ n ∈ p.nodes, n.toNodeName ≠ name) :
    (c.performAll [.changeNode gid name .add, .changeNode gid name .remove]).graph =
      g.withParticipant gid p := by
  have hlast : FirstNamed name (p.nodes ++ [.ofName name]) p.nodes (.ofName name) [] :=
    ⟨rfl, rfl, hname⟩
  have hadd := graph_perform_changeNode hgraph (.add : Acts name p.nodes .add _)
  have hremove := graph_perform_changeNode hadd (.remove hlast)
  rw [List.append_nil] at hremove
  exact hremove

/-- What a node is associated with are multisets, one for each kind, and the calls have
exact inverses.  Any number of calls on a name of a participant turns the first node of
that name as they say, and leaves all other nodes, even of that name, all other
participants and all entities as they are.  Associating an endpoint that is not there and
dissociating it again restores the graph, and so does adding a node under a new name and
removing it again. -/
theorem associations_follow_links (c : Cache) {gid : Gid} {name : NodeName} {p : Participant}
    (hp : c.graph.participants[gid]? = some p) :
    ((∃ n ∈ p.nodes, n.toNodeName = name) → ∃ before n after,
      FirstNamed name p.nodes before n after ∧
        (∀ links : List Link, ∃ m, Link.Turns links n m ∧
          (c.performAll (links.map (Link.operation gid name))).graph =
            c.graph.withParticipant gid { p with nodes := before ++ m :: after }) ∧
        ∀ kind endpoint, endpoint ∉ n.endpoints kind →
          (c.performAll [.changeNode gid name (.associate kind endpoint),
            .changeNode gid name (.dissociate kind endpoint)]).graph = c.graph) ∧
      ((∀ n ∈ p.nodes, n.toNodeName ≠ name) →
        (c.performAll [.changeNode gid name .add, .changeNode gid name .remove]).graph =
          c.graph) := by
  have hgraph := Graph.withParticipant_of_getElem? hp
  constructor
  · intro hname
    obtain ⟨before, n, after, hfirst⟩ := exists_firstNamed hname
    refine ⟨before, n, after, hfirst, ?_, ?_⟩
    · intro links
      exact ⟨_, Link.turns_foldl links n, graph_performAll_links links hgraph.symm hfirst⟩
    · intro kind endpoint habsent
      have hpair := graph_performAll_links
        [.associate kind endpoint, .dissociate kind endpoint] hgraph.symm hfirst
      rw [List.foldl_cons, List.foldl_cons, List.foldl_nil, Link.onNode_onNode_of_notMem habsent,
        ← hfirst.nodes_eq, hgraph] at hpair
      exact hpair
  · intro hname
    exact (graph_performAll_add_remove hgraph.symm hname).trans hgraph

/-- The name talker stands twice here, and the first talker lists a writer twice. -/
def doubledTalker : Participant where
  enclave := "/"
  nodes :=
    [⟨⟨"listener", "/"⟩, [], []⟩,
      ⟨⟨"talker", "/"⟩, [], [.padded [1], .padded [2], .padded [1]]⟩,
      ⟨⟨"talker", "/"⟩, [], [.padded [1]]⟩]

/-- Calls on the talker, one of which undoes what is not there. -/
def talkerLinks : List Link :=
  [.dissociate .publisher (.padded [3]), .dissociate .publisher (.padded [1]),
    .associate .publisher (.padded [3]), .associate .subscription (.padded [1])]

theorem associations_doubledTalker :
    let talker : NodeName := ⟨"talker", "/"⟩
    let spare : NodeName := ⟨"spare", "/"⟩
    let g := Graph.empty.withParticipant (.padded [9]) doubledTalker
    let c : Cache := { empty with graph := g }
    c.graph.participants[Gid.padded [9]]? = some doubledTalker ∧
      (∃ n ∈ doubledTalker.nodes, n.toNodeName = talker) ∧
      (∀ n ∈ doubledTalker.nodes, n.toNodeName ≠ spare) ∧
      (∃ m, (c.performAll (talkerLinks.map (Link.operation (.padded [9]) talker))).graph =
            g.withParticipant (.padded [9])
              ⟨"/", [⟨⟨"listener", "/"⟩, [], []⟩, m, ⟨talker, [], [.padded [1]]⟩]⟩ ∧
          m.writers.count (.padded [1]) = 1 ∧ m.readers.count (.padded [1]) = 1 ∧
          m.writers.filter (· ≠ .padded [1]) = [.padded [2], .padded [3]]) ∧
      (c.performAll [.changeNode (.padded [9]) talker (.associate .publisher (.padded [3])),
        .changeNode (.padded [9]) talker (.dissociate .publisher (.padded [3]))]).graph = g ∧
      (c.performAll [.changeNode (.padded [9]) spare .add,
        .changeNode (.padded [9]) spare .remove]).graph = g := by
  intro talker spare g c
  have hp : c.graph.participants[Gid.padded [9]]? = some doubledTalker := by
    rw [Graph.getElem?_withParticipant, if_pos rfl]
  have htalker : ∃ n ∈ doubledTalker.nodes, n.toNodeName = talker := by decide
  have hspare : ∀ n ∈ doubledTalker.nodes, n.toNodeName ≠ spare := by decide
  obtain ⟨before, n, after, hfirst, hlinks, hpair⟩ := (associations_follow_links c hp).1 htalker
  -- The node that the calls act on is the second one of the three.
  obtain ⟨_, rfl, hrest⟩ := (firstNamed_cons_of_ne (by decide)).mp hfirst
  obtain ⟨rfl, rfl, rfl⟩ := (firstNamed_cons_of_eq (by decide)).mp hrest
  obtain ⟨m, hm, hgraph⟩ := hlinks talkerLinks
  refine ⟨hp, htalker, hspare, ⟨m, hgraph, ?_, ?_, ?_⟩, ?_, ?_⟩
  · exact (hm.count_eq .publisher _).trans (by decide)
  · exact (hm.count_eq .subscription _).trans (by decide)
  · exact (hm.filter_eq .publisher _).trans (by decide)
  · exact hpair .publisher (.padded [3]) (by decide)
  · exact (associations_follow_links c hp).2 hspare

end Cache

end DiscoveryGraph
