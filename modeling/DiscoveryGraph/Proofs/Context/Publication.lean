import DiscoveryGraph.Proofs.Context.Messages

/-!
# What a context publishes

The calls of a context exclude one another.  Everything else goes on beside them and
also in the middle of a call, when the graph has changed and its snapshot is not yet
published: messages arrive and are handled, the listener ends and starts again.  None
of this touches the own entry.  So what a call publishes is what the graph says about
the context once the call is over, and it is published once.
-/

namespace DiscoveryGraph.Context

variable {state : Type}

/-- What happens to a context beside its calls. -/
inductive Incident
  | startListener
  | send (sample : Sample)
  | closeInbox
  | listen
  | shutdown
  | drop
  | trigger
  | takeNotice
  deriving DecidableEq

def undergo (ctx : Context state) : Incident → Context state
  | .startListener => ctx.startListener.2
  | .send sample => ctx.send sample
  | .closeInbox => ctx.closeInbox
  | .listen => ctx.listen
  | .shutdown => ctx.shutdown
  | .drop => ctx.drop
  | .trigger => { ctx with guard := ctx.guard.trigger }
  | .takeNotice => { ctx with guard := ctx.guard.take.2 }

def undergoAll (ctx : Context state) (incidents : List Incident) : Context state :=
  incidents.foldl undergo ctx

/-- Carries out a call while things happen between its two halves. -/
def callAmid (ctx : Context state) (incidents : List Incident) (c : Call) :
    Except Error Unit × Context state :=
  ((ctx.prepare c).2.undergoAll incidents).publishPrepared (ctx.prepare c).1

/-- A call amid nothing is just that call. -/
theorem callAmid_nil (ctx : Context state) (c : Call) : ctx.callAmid [] c = ctx.call c := rfl

theorem callAmid_of_error {ctx : Context state} {c : Call} {e : Error}
    (hprepare : (ctx.prepare c).1 = .error e) (incidents : List Incident) :
    ctx.callAmid incidents c = (.error e, (ctx.prepare c).2.undergoAll incidents) := by
  rw [callAmid, hprepare, publishPrepared]

theorem callAmid_of_ok {ctx : Context state} {c : Call} {s : Snapshot}
    (hprepare : (ctx.prepare c).1 = .ok s) (incidents : List Incident) :
    ctx.callAmid incidents c = ((ctx.prepare c).2.undergoAll incidents).publish s := by
  rw [callAmid, hprepare, publishPrepared]

inductive Step
  | call (incidents : List Incident) (c : Call)
  | incident (x : Incident)
  deriving DecidableEq

def step (ctx : Context state) : Step → Context state
  | .call incidents c => (ctx.callAmid incidents c).2
  | .incident x => ctx.undergo x

def run (ctx : Context state) (steps : List Step) : Context state := steps.foldl step ctx

/-! ## What incidents leave alone -/

/-- The identity, the publisher with its state, and the own entry are the same in both
contexts. -/
structure Undisturbed (ctx next : Context state) : Prop where
  gid : next.gid = ctx.gid
  publisher : next.publisher = ctx.publisher
  outbox : next.outbox = ctx.outbox
  entry : next.entry ctx.gid = ctx.entry ctx.gid

namespace Undisturbed

variable {ctx next last : Context state}

theorem refl (ctx : Context state) : Undisturbed ctx ctx := ⟨rfl, rfl, rfl, rfl⟩

theorem trans (h : Undisturbed ctx next) (h' : Undisturbed next last) :
    Undisturbed ctx last where
  gid := h'.gid.trans h.gid
  publisher := h'.publisher.trans h.publisher
  outbox := h'.outbox.trans h.outbox
  entry := by
    have hentry := h'.entry
    rw [h.gid] at hentry
    exact hentry.trans h.entry

theorem handle? (ctx : Context state) (sample? : Option Sample) :
    Undisturbed ctx (ctx.handle? sample?) := by
  cases sample? with
  | none => exact refl ctx
  | some sample => exact ⟨rfl, rfl, rfl, entry_handle_gid ctx sample⟩

theorem onInbox (ctx : Context state) (f : Inbox → Inbox) : Undisturbed ctx (ctx.onInbox f) := by
  unfold Context.onInbox
  cases ctx.slot <;> exact ⟨rfl, rfl, rfl, rfl⟩

theorem listen (ctx : Context state) : Undisturbed ctx ctx.listen := by
  unfold Context.listen
  cases ctx.slot with
  | running l =>
      have hslot : ∀ slot, Undisturbed ctx { ctx with slot } := fun _ => ⟨rfl, rfl, rfl, rfl⟩
      exact (hslot _).trans (handle? _ l.step.1)
  | _ => exact refl ctx

theorem shutdown (ctx : Context state) : Undisturbed ctx ctx.shutdown := by
  have hvacant : Undisturbed ctx { ctx with slot := .vacant } := ⟨rfl, rfl, rfl, rfl⟩
  unfold Context.shutdown
  cases ctx.slot with
  | running l => exact hvacant.trans (handle? _ l.lastSample?)
  | _ => exact hvacant

theorem undergo (ctx : Context state) (x : Incident) : Undisturbed ctx (ctx.undergo x) := by
  cases x with
  | startListener =>
      unfold Context.undergo startListener startListenerOn
      cases ctx.slot <;> exact ⟨rfl, rfl, rfl, rfl⟩
  | send sample => exact onInbox ctx fun inbox =>
      if inbox.closed then inbox else { inbox with queue := inbox.queue ++ [sample] }
  | closeInbox => exact onInbox ctx fun inbox => { inbox with closed := true }
  | listen => exact listen ctx
  | shutdown => exact shutdown ctx
  | drop =>
      unfold Context.undergo Context.drop
      by_cases hdropped : ctx.dropped = true
      · rw [if_pos hdropped]
        exact refl ctx
      · rw [if_neg hdropped]
        have hshutdown := shutdown ctx
        exact ⟨hshutdown.gid, hshutdown.publisher, hshutdown.outbox, hshutdown.entry⟩
  | trigger => exact ⟨rfl, rfl, rfl, rfl⟩
  | takeNotice => exact ⟨rfl, rfl, rfl, rfl⟩

theorem undergoAll (ctx : Context state) (incidents : List Incident) :
    Undisturbed ctx (ctx.undergoAll incidents) := by
  induction incidents generalizing ctx with
  | nil => exact refl ctx
  | cons x rest ih => exact (undergo ctx x).trans (ih (ctx.undergo x))

end Undisturbed

/-! ## What every run keeps -/

/-- The context has its identity, publisher and enclave still, and is in its graph. -/
structure Registered (gid : Gid) (enclave : String) (publisher : Publisher state)
    (ctx : Context state) : Prop where
  gid_eq : ctx.gid = gid
  publisher_eq : ctx.publisher = publisher
  exists_nodes : ∃ nodes, ctx.entry gid = some ⟨enclave, nodes⟩

namespace Registered

variable {gid : Gid} {enclave : String} {publisher : Publisher state} {ctx next : Context state}

theorem new (gid : Gid) (enclave : String) (publisher : Publisher state) (outbox : state) :
    Registered gid enclave publisher (new gid enclave publisher outbox) where
  gid_eq := rfl
  publisher_eq := rfl
  exists_nodes := ⟨[], by rw [entry_new, if_pos rfl]⟩

theorem entry_eq (h : Registered gid enclave publisher ctx) :
    ctx.entry ctx.gid = some ⟨enclave, ctx.ownNodes⟩ := by
  obtain ⟨nodes, hnodes⟩ := h.exists_nodes
  rw [← h.gid_eq] at hnodes
  rw [ownNodes_eq, hnodes]
  rfl

theorem of_undisturbed (h : Registered gid enclave publisher ctx)
    (hnext : Undisturbed ctx next) : Registered gid enclave publisher next where
  gid_eq := hnext.gid.trans h.gid_eq
  publisher_eq := hnext.publisher.trans h.publisher_eq
  exists_nodes := by
    have hentry := hnext.entry
    rw [h.gid_eq] at hentry
    rw [hentry]
    exact h.exists_nodes

theorem prepare (h : Registered gid enclave publisher ctx) (c : Call) :
    Registered gid enclave publisher (ctx.prepare c).2 where
  gid_eq := (frame_prepare ctx c).gid.trans h.gid_eq
  publisher_eq := (frame_prepare ctx c).publisher.trans h.publisher_eq
  exists_nodes := by
    obtain ⟨e, -, hentry⟩ | ⟨p, nodes, hown, -, hentry⟩ := ctx.prepare_cases c
    · rw [hentry]
      exact h.exists_nodes
    · have hp : p = ⟨enclave, ctx.ownNodes⟩ := Option.some.inj (hown.symm.trans h.entry_eq)
      exact ⟨nodes, by rw [hentry, if_pos h.gid_eq.symm, hp]⟩

theorem step (h : Registered gid enclave publisher ctx) (s : Step) :
    Registered gid enclave publisher (ctx.step s) := by
  cases s with
  | call incidents c =>
      have hnext := (h.prepare c).of_undisturbed (.undergoAll _ incidents)
      rw [Context.step]
      cases hprepare : (ctx.prepare c).1 with
      | error e =>
          rw [callAmid_of_error hprepare]
          exact hnext
      | ok s =>
          rw [callAmid_of_ok hprepare]
          exact ⟨hnext.gid_eq, hnext.publisher_eq, hnext.exists_nodes⟩
  | incident x => exact h.of_undisturbed (.undergo ctx x)

theorem run (h : Registered gid enclave publisher ctx) (steps : List Step) :
    Registered gid enclave publisher (ctx.run steps) := by
  induction steps generalizing ctx with
  | nil => exact h
  | cons s rest ih => exact ih (h.step s)

end Registered

/-! ## Calls of a context that is in its graph -/

variable {ctx : Context state} {p : Participant} {name : NodeName} {action : NodeAction}

theorem prepare_of_unnamed (hown : ctx.entry ctx.gid = some p)
    (hnodes : action.apply name p.nodes = none) :
    ctx.prepare (.changeNode name action) = (.error (.nodeNotFound name), ctx) := by
  have hchange := ctx.cache.graph.changeNode_of_unnamed hown hnodes
  simp [prepare, onCache, hchange, Cache.commit]

theorem prepare_of_named {nodes : List Node} (hown : ctx.entry ctx.gid = some p)
    (hnodes : action.apply name p.nodes = some nodes) :
    (ctx.prepare (.changeNode name action)).1 = .ok ⟨ctx.gid, nodes⟩ := by
  have hchange := ctx.cache.graph.changeNode_of_named hown hnodes
  simp [prepare, onCache, hchange, Cache.commit]

theorem snapshot?_of_entry {gid : Gid} (hentry : ctx.entry gid = some p) :
    ctx.cache.graph.snapshot? gid = some ⟨gid, p.nodes⟩ := by
  have hpresent : ctx.cache.graph.participants[gid]? = some p := hentry
  rw [Graph.snapshot?, hpresent]
  rfl

theorem prepare_republish (hown : ctx.entry ctx.gid = some p) :
    ctx.prepare .republish = (.ok ⟨ctx.gid, p.nodes⟩, ctx) := by
  simp only [prepare, snapshot?_of_entry hown]

theorem prepare_ne_participantNotFound (hown : ctx.entry ctx.gid = some p) (c : Call)
    (other : Gid) : (ctx.prepare c).1 ≠ .error (.participantNotFound other) := by
  cases c with
  | changeNode name action =>
      cases hnodes : action.apply name p.nodes with
      | none => simp [prepare_of_unnamed hown hnodes]
      | some nodes => simp [prepare_of_named hown hnodes]
  | republish => simp [prepare_republish hown]

/-- A call that succeeds in its first half hands its snapshot to the publisher, in the
state in which the call found it, and the graph says then what the snapshot says. -/
theorem callAmid_publishes {gid : Gid} {enclave : String} {publisher : Publisher state}
    (h : Registered gid enclave publisher ctx) {c : Call} {s : Snapshot}
    (hprepare : (ctx.prepare c).1 = .ok s) (incidents : List Incident) :
    let answer := ctx.callAmid incidents c
    (answer.1, answer.2.outbox) = publisher s ctx.outbox ∧
      answer.2.cache = ((ctx.prepare c).2.undergoAll incidents).cache ∧
      answer.2.cache.graph.snapshot? gid = some s := by
  -- Between the halves neither the publisher nor the own entry changes, so the snapshot
  -- of the first half is still what the graph says.
  have hafter := h.prepare c
  have hamid := Undisturbed.undergoAll (ctx.prepare c).2 incidents
  have hpublisher : ((ctx.prepare c).2.undergoAll incidents).publisher = publisher :=
    hamid.publisher.trans hafter.publisher_eq
  have houtbox : ((ctx.prepare c).2.undergoAll incidents).outbox = ctx.outbox :=
    hamid.outbox.trans (frame_prepare ctx c).outbox
  have hown : ((ctx.prepare c).2.undergoAll incidents).entry gid =
      some ⟨enclave, (ctx.prepare c).2.ownNodes⟩ := by
    rw [← hafter.gid_eq, hamid.entry, hafter.entry_eq]
  have hsnapshot := snapshot?_of_entry hown
  rw [callAmid_of_ok hprepare]
  intro answer
  refine ⟨?_, rfl, ?_⟩
  · rw [← hpublisher, ← houtbox]
    rfl
  · rw [eq_snapshot_of_prepare hprepare, h.gid_eq]
    exact hsnapshot

/-- In every run of a context, with any publisher and any messages: the context is in
its graph, with the enclave that it was given, so no call misses the participant.  A
call that needs a node of a name that no own node has fails and does nothing.  Every
other call that changes the nodes, and each `republish`, hands one snapshot to the
publisher and answers with its result.  The snapshot is what the graph says about the
context when the call is over, also if the publisher refuses it.  As the publisher may
be one that writes down what it gets, this tells how often it is asked. -/
theorem publishes_own_entry (gid : Gid) (enclave : String) (publisher : Publisher state)
    (outbox : state) (steps : List Step) :
    let ctx := (new gid enclave publisher outbox).run steps
    ctx.cache.graph.participants[gid]? = some ⟨enclave, ctx.ownNodes⟩ ∧
      (∀ c other, (ctx.prepare c).1 ≠ .error (.participantNotFound other)) ∧
      (∀ incidents, Undisturbed ctx (ctx.undergoAll incidents)) ∧
      (∀ incidents name action, action ≠ .add → (∀ n ∈ ctx.ownNodes, n.toNodeName ≠ name) →
        ctx.callAmid incidents (.changeNode name action) =
          (.error (.nodeNotFound name), ctx.undergoAll incidents)) ∧
      (∀ incidents name action, action = .add ∨ (∃ n ∈ ctx.ownNodes, n.toNodeName = name) →
        let answer := ctx.callAmid incidents (.changeNode name action)
        let changed := (ctx.prepare (.changeNode name action)).2
        ∃ nodes, Acts name ctx.ownNodes action nodes ∧
          (answer.1, answer.2.outbox) = publisher ⟨gid, nodes⟩ ctx.outbox ∧
          answer.2.cache.graph.snapshot? gid = some ⟨gid, nodes⟩ ∧
          answer.2.cache = (changed.undergoAll incidents).cache ∧
          changed.cache = (ctx.cache.perform (.changeNode gid name action)).2) ∧
      ∀ incidents,
        let answer := ctx.callAmid incidents .republish
        (answer.1, answer.2.outbox) = publisher ⟨gid, ctx.ownNodes⟩ ctx.outbox ∧
          ctx.cache.graph.snapshot? gid = some ⟨gid, ctx.ownNodes⟩ ∧
          answer.2 = { ctx.undergoAll incidents with outbox := answer.2.outbox } := by
  intro ctx
  have h : Registered gid enclave publisher ctx :=
    (Registered.new gid enclave publisher outbox).run steps
  have hgid : ctx.gid = gid := h.gid_eq
  have hown : ctx.entry ctx.gid = some ⟨enclave, ctx.ownNodes⟩ := h.entry_eq
  refine ⟨?_, ?_, fun incidents => .undergoAll ctx incidents, ?_, ?_, ?_⟩
  · rw [← hgid]
    exact hown
  · exact prepare_ne_participantNotFound hown
  · intro incidents name action hadd hname
    have hnodes : action.apply name ctx.ownNodes = none :=
      NodeAction.apply_eq_none_iff.mpr ⟨hadd, hname⟩
    rw [callAmid, prepare_of_unnamed hown hnodes, publishPrepared]
  · intro incidents name action hnamed answer changed
    obtain ⟨nodes, hacts⟩ := NodeAction.exists_acts hnamed
    have hprepare := prepare_of_named hown (NodeAction.apply_eq_some_iff.mpr hacts)
    rw [hgid] at hprepare
    obtain ⟨hpublished, hcache, hsnapshot⟩ := callAmid_publishes h hprepare incidents
    have hchanged := ctx.cache_prepare_changeNode name action
    rw [hgid] at hchanged
    exact ⟨nodes, hacts, hpublished, hsnapshot, hcache, hchanged⟩
  · intro incidents answer
    have hprepare := prepare_republish hown
    rw [hgid] at hprepare
    have hok : (ctx.prepare .republish).1 = .ok ⟨gid, ctx.ownNodes⟩ := by rw [hprepare]
    obtain ⟨hpublished, -, -⟩ := callAmid_publishes h hok incidents
    have hsnapshot := snapshot?_of_entry hown
    rw [hgid] at hsnapshot
    refine ⟨hpublished, hsnapshot, ?_⟩
    have hanswer : ctx.callAmid incidents .republish =
        (ctx.undergoAll incidents).publish ⟨gid, ctx.ownNodes⟩ := by
      rw [callAmid_of_ok hok, hprepare]
    rw [show answer = _ from hanswer]
    rfl

end DiscoveryGraph.Context
