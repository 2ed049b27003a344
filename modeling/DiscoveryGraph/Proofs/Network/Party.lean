import DiscoveryGraph.Proofs.Network.Chronicle
import DiscoveryGraph.Proofs.Snapshot.RoundTrip

/-!
# One party and its log

Every message in an outbox or an inbox can be read and says what its mark says.
What a party knows about another one is what the last mark says that it has
handled of it.  Everything that a party does keeps this so.
-/

namespace DiscoveryGraph

variable {ι : Type}

/-- Messages that say what their marks say. -/
def Carry (gid : ι → Gid) : List Sample → List (Mark ι) → Prop :=
  List.Forall₂ fun sample mark => Snapshot.decode sample = .ok ⟨gid mark.sender, mark.nodes⟩

theorem Carry.append_one {gid : ι → Gid} {samples : List Sample} {marks : List (Mark ι)}
    (h : Carry gid samples marks) {sample : Sample} {mark : Mark ι}
    (hdecode : Snapshot.decode sample = .ok ⟨gid mark.sender, mark.nodes⟩) :
    Carry gid (samples ++ [sample]) (marks ++ [mark]) :=
  List.rel_append h (.cons hdecode .nil)

theorem Carry.exists_eq_cons {gid : ι → Gid} {sample : Sample} {rest : List Sample}
    {marks : List (Mark ι)} (h : Carry gid (sample :: rest) marks) :
    ∃ mark tail, marks = mark :: tail ∧
      Snapshot.decode sample = .ok ⟨gid mark.sender, mark.nodes⟩ ∧ Carry gid rest tail := by
  obtain ⟨mark, tail, hdecode, hrest, rfl⟩ := List.forall₂_cons_left_iff.mp h
  exact ⟨mark, tail, rfl, hdecode, hrest⟩

/-- What a party knows about another one when it has handled these messages of
it. -/
def known (marks : List (Mark ι)) : Option Participant :=
  marks.getLast?.map fun mark => ⟨"", mark.nodes⟩

theorem isSome_known_iff (marks : List (Mark ι)) : (known marks).isSome = true ↔ marks ≠ [] := by
  rw [known, Option.isSome_map, ← Option.ne_none_iff_isSome, Ne, List.getLast?_eq_none_iff]

theorem known_concat (marks : List (Mark ι)) (mark : Mark ι) :
    known (marks ++ [mark]) = some ⟨"", mark.nodes⟩ := by
  simp [known]

theorem enclave_known (marks : List (Mark ι)) : ((known marks).getD .empty).enclave = "" := by
  unfold known
  cases marks.getLast? <;> rfl

theorem entry_handle_eq_known [DecidableEq ι] {state : Type} {gid : ι → Gid}
    (hgid : Function.Injective gid) {ctx : Context state} {sample : Sample} {mark : Mark ι}
    (hdecode : Snapshot.decode sample = .ok ⟨gid mark.sender, mark.nodes⟩)
    {k : ι} (hother : gid k ≠ ctx.gid) {handled : List (Mark ι)}
    (hknown : ctx.entry (gid k) = known (handled.filter (·.sender = k))) :
    (ctx.handle sample).entry (gid k) =
      known ((handled ++ [mark]).filter (·.sender = k)) := by
  rw [Context.entry_handle_of_decode hdecode, hknown, List.filter_append]
  by_cases hsender : mark.sender = k
  · have hone : [mark].filter (·.sender = k) = [mark] := by simp [hsender]
    have hself : gid k = gid mark.sender ∧ gid k ≠ ctx.gid := ⟨by rw [hsender], hother⟩
    rw [if_pos hself, hone, known_concat]
    simp only [enclave_known]
  · have hnone : [mark].filter (·.sender = k) = [] := by simp [hsender]
    have hnot : ¬ (gid k = gid mark.sender ∧ gid k ≠ ctx.gid) := by
      rintro ⟨hsame, -⟩
      exact hsender (hgid hsame).symm
    rw [if_neg hnot, hnone, List.append_nil]

/-! ## Following a log -/

/-- A party that works as its log says. -/
structure Party.Follows [DecidableEq ι] (gid : ι → Gid) (memory : Cdr.Memory) (i : ι)
    (p : Party) (l : Log ι) : Prop where
  gid_eq : p.context.gid = gid i
  publisher_eq : p.context.publisher = Outbox.publisher memory
  connected : p.context.outbox.connected = true
  /-- A call under way will publish the present own nodes. -/
  waiting : ∀ s, p.waiting = some s → s = ⟨gid i, p.context.ownNodes⟩
  outgoing : Carry gid p.context.outbox.samples l.outgoing
  sender : ∀ mark ∈ l.published, mark.sender = i
  /-- What was published last is what the last successful call left behind. -/
  settled : l.settled = l.published.getLast?.map Mark.nodes
  arrived : ∃ queue phase, p.context.Hears queue phase ∧ Carry gid queue l.arrived
  /-- The entries of the others are what was heard of them last. -/
  known : ∀ k, k ≠ i → p.context.entry (gid k) = known (l.heard k)

namespace Party.Follows

variable [DecidableEq ι] {gid : ι → Gid} {memory : Cdr.Memory} {i : ι} {p : Party} {l : Log ι}

theorem start (hgid : Function.Injective gid) (i : ι) (enclave : String)
    (memory : Cdr.Memory) :
    (Party.start (gid i) enclave memory).Follows gid memory i .empty where
  gid_eq := rfl
  publisher_eq := rfl
  connected := rfl
  waiting := by simp [Party.start]
  outgoing := .nil
  sender := by simp [Log.empty]
  settled := rfl
  arrived := ⟨[], .beforeReceiving, rfl, .nil⟩
  known := by
    intro k hk
    have hentry := Context.entry_new (gid i) enclave (Outbox.publisher memory) .empty (gid k)
    rw [if_neg (hgid.ne hk)] at hentry
    exact hentry

theorem prepare (hgid : Function.Injective gid) (h : p.Follows gid memory i l) (c : Call) :
    (p.prepare c).Follows gid memory i l := by
  unfold Party.prepare
  cases hidle : p.waiting with
  | some s => exact h
  | none =>
      have hframe := Context.frame_prepare p.context c
      exact
        { gid_eq := hframe.gid.trans h.gid_eq
          publisher_eq := hframe.publisher.trans h.publisher_eq
          connected := by
            rw [hframe.outbox]
            exact h.connected
          waiting := by
            intro s hs
            rw [← h.gid_eq]
            apply Context.eq_snapshot_of_prepare
            cases hresult : (p.context.prepare c).1 with
            | error e => simp [hresult, Except.toOption] at hs
            | ok t => simpa [hresult, Except.toOption] using hs
          outgoing := by
            rw [hframe.outbox]
            exact h.outgoing
          sender := h.sender
          settled := h.settled
          arrived := by
            obtain ⟨queue, phase, hhears, hcarry⟩ := h.arrived
            exact ⟨queue, phase, hframe.slot.trans hhears, hcarry⟩
          known := by
            intro k hk
            rw [← h.known k hk]
            apply Context.entry_prepare_of_ne
            rw [h.gid_eq]
            exact hgid.ne hk }

theorem publish (h : p.Follows gid memory i l) :
    p.publish.2.Follows gid memory i (l.publish i p) := by
  unfold Log.publish Party.publish
  cases hwaiting : p.waiting with
  | none => simpa using h
  | some s =>
      obtain ⟨e, hrefused⟩ | ⟨sample, hencode, haccepted⟩ :=
        Context.publish_cases h.publisher_eq h.connected s
      · simp only [hrefused, Nat.lt_irrefl, if_false, List.append_nil]
        exact { h with waiting := by simp }
      · have hs : s = ⟨gid i, p.context.ownNodes⟩ := h.waiting s hwaiting
        have hdecode := Snapshot.decode_of_encode hencode
        rw [hs] at hdecode
        simp only [haccepted, List.length_append, List.length_singleton, Nat.lt_succ_self,
          if_true]
        exact
          { h with
            waiting := by simp
            outgoing := h.outgoing.append_one hdecode
            sender := by
              intro mark hmark
              rcases List.mem_append.mp hmark with hold | hnew
              · exact h.sender mark hold
              · rw [List.mem_singleton.mp hnew]
            settled := by
              rw [List.getLast?_concat]
              rfl }

theorem withSamples (h : p.Follows gid memory i l) {samples : List Sample}
    {marks : List (Mark ι)} (hcarry : Carry gid samples marks) :
    (p.withSamples samples).Follows gid memory i { l with outgoing := marks } :=
  { h with outgoing := hcarry }

theorem send (h : p.Follows gid memory i l) {sample : Sample} {mark : Mark ι}
    (hdecode : Snapshot.decode sample = .ok ⟨gid mark.sender, mark.nodes⟩) :
    (p.send sample).Follows gid memory i (l.arrive (some mark)) := by
  obtain ⟨queue, phase, hhears, hcarry⟩ := h.arrived
  unfold Party.send
  rw [hhears.send]
  exact { h with arrived := ⟨queue ++ [sample], phase, rfl, hcarry.append_one hdecode⟩ }

theorem listen (hgid : Function.Injective gid) (h : p.Follows gid memory i l) :
    p.listen.Follows gid memory i (l.listen p) := by
  obtain ⟨queue, phase, hhears, hcarry⟩ := h.arrived
  have hwaiting : ∀ s, p.waiting = some s → s = ⟨gid i, p.context.listen.ownNodes⟩ := by
    rw [Context.ownNodes_listen]
    exact h.waiting
  unfold Party.listen Log.listen
  obtain ⟨hnone, next, hlisten⟩ | ⟨sample, rest, hqueue, hsome, next, hlisten⟩ :=
    hhears.listen_cases
  · rw [hlisten, hnone]
    exact { h with arrived := ⟨queue, next, rfl, hcarry⟩ }
  · rw [hqueue] at hcarry
    obtain ⟨mark, tail, harrived, hdecode, hrest⟩ := hcarry.exists_eq_cons
    rw [hlisten] at hwaiting
    rw [hlisten, hsome, harrived]
    exact
      { h with
        waiting := hwaiting
        arrived := ⟨rest, next, rfl, hrest⟩
        known := by
          intro k hk
          have hother : gid k ≠ p.context.gid := by
            rw [h.gid_eq]
            exact hgid.ne hk
          exact entry_handle_eq_known hgid hdecode hother (h.known k hk) }

end Party.Follows

end DiscoveryGraph
