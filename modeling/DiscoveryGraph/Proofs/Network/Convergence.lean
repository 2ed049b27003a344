import DiscoveryGraph.Proofs.Network.Invariant

/-!
# Convergence of discovery

Whatever the order of steps, a context knows about another one what the last
message says that it has handled of it, and once it has handled all of them that
is what the last successful call of the other one has left behind.  A call that
fails may change the own nodes of its context, but the others do not hear of
that until a later call succeeds.
-/

namespace DiscoveryGraph

/-! ## Own entries -/

namespace Party

/-- What a party says about itself in its own graph. -/
def ownEntry (p : Party) : Option Participant := p.context.entry p.context.gid

theorem ownEntry_publish (p : Party) : p.publish.2.ownEntry = p.ownEntry := by
  unfold publish
  cases p.waiting <;> rfl

theorem ownEntry_withSamples (p : Party) (samples : List Sample) :
    (p.withSamples samples).ownEntry = p.ownEntry :=
  rfl

theorem ownEntry_send (p : Party) (sample : Sample) : (p.send sample).ownEntry = p.ownEntry := by
  unfold send Context.send Context.onInbox ownEntry
  cases p.context.slot <;> rfl

theorem ownEntry_listen (p : Party) : p.listen.ownEntry = p.ownEntry := by
  unfold listen ownEntry
  rw [Context.gid_listen, Context.entry_listen_gid]

end Party

namespace Network

variable {ι : Type} [DecidableEq ι]

theorem ownEntry_withParty (net : Network ι) {i : ι} {p : Party}
    (hp : p.ownEntry = (net.parties i).ownEntry) (j : ι) :
    ((net.withParty i p).parties j).ownEntry = (net.parties j).ownEntry := by
  rw [parties_withParty]
  by_cases hj : j = i
  · rw [if_pos hj, hp, hj]
  · rw [if_neg hj]

/-- Only a call changes the own entry of its context. -/
theorem ownEntry_step (net : Network ι) (j : ι) {s : Step ι} (hs : ∀ c, s ≠ .prepare j c) :
    ((net.step s).parties j).ownEntry = (net.parties j).ownEntry := by
  cases s with
  | prepare i c =>
      have hother : j ≠ i := by
        rintro rfl
        exact hs c rfl
      rw [step, parties_withParty, if_neg hother]
  | publish i => exact net.ownEntry_withParty (Party.ownEntry_publish _) j
  | collect i =>
      simp only [step]
      cases (net.parties i).context.outbox.samples with
      | nil => rfl
      | cons sample rest => exact net.ownEntry_withParty (Party.ownEntry_withSamples _ rest) j
  | deliver i k =>
      simp only [step]
      cases net.links i k with
      | nil => rfl
      | cons sample rest => exact net.ownEntry_withParty (Party.ownEntry_send _ sample) j
  | listen k => exact net.ownEntry_withParty (Party.ownEntry_listen _) j

end Network

/-! ## Entries of others -/

namespace Observed

variable {ι : Type} [DecidableEq ι] {gid : ι → Gid} {memory : ι → Cdr.Memory} {o : Observed ι}

namespace Sound

theorem heard_prefix_published (h : o.Sound gid memory) (j i : ι) :
    o.heard j i <+: o.published i := by
  have horder := h.order i j
  rw [Log.received, List.filter_append, List.append_assoc, List.append_assoc] at horder
  exact ⟨_, horder⟩

theorem entry_eq_known (h : o.Sound gid memory) {i j : ι} (hij : i ≠ j) :
    (o.context j).entry (gid i) = known (o.heard j i) :=
  (h.party j).known i hij

theorem known_published (h : o.Sound gid memory) (i : ι) :
    known (o.published i) = (o.settled i).map (⟨"", ·⟩) := by
  have hsettled : o.settled i = (o.published i).getLast?.map Mark.nodes :=
    (h.party i).settled
  rw [hsettled, Option.map_map]
  rfl

end Sound

/-- For every order of steps: a context has an entry of another one exactly if
it has handled a message of it; the entry holds the nodes that the other one had
when it published the last of these messages; messages are handled in the order
of publication; and where all of them are, the entry holds what the last
successful call of the other one left behind.  No message changes the own entry
of its receiver, and of all steps only a call of its own does. -/
theorem convergence (hgid : Function.Injective gid) (enclave : ι → String)
    (memory : ι → Cdr.Memory) (steps : List (Network.Step ι)) {i j : ι} (hij : i ≠ j) :
    let o := (start gid enclave memory).run steps
    (((o.context j).entry (gid i)).isSome = true ↔ o.heard j i ≠ []) ∧
      (∀ mark, (o.heard j i).getLast? = some mark →
        (o.context j).entry (gid i) = some ⟨"", mark.nodes⟩) ∧
      o.heard j i <+: o.published i ∧
      (o.heard j i = o.published i →
        (o.context j).entry (gid i) = (o.settled i).map (⟨"", ·⟩)) ∧
      (∀ sample, ((o.context j).handle sample).entry (gid j) = (o.context j).entry (gid j)) ∧
      ∀ s, (∀ c, s ≠ .prepare j c) →
        ((o.step s).context j).entry (gid j) = (o.context j).entry (gid j) := by
  intro o
  have hsound : o.Sound gid memory := (Sound.start hgid enclave).run hgid steps
  have hentry := hsound.entry_eq_known hij
  have hown : (o.context j).gid = gid j := (hsound.party j).gid_eq
  refine ⟨?_, ?_, hsound.heard_prefix_published j i, ?_, ?_, ?_⟩
  · rw [hentry, isSome_known_iff]
  · intro mark hmark
    rw [hentry, known, hmark]
    rfl
  · intro hall
    rw [hentry, hall]
    exact hsound.known_published i
  · intro sample
    rw [← hown]
    exact Context.entry_handle_gid _ sample
  · intro s hs
    have hnext : ((o.step s).context j).gid = gid j :=
      ((hsound.step hgid s).party j).gid_eq
    have hstep : ((o.step s).context j).entry ((o.step s).context j).gid =
        (o.context j).entry (o.context j).gid :=
      o.net.ownEntry_step j hs
    rw [hnext, hown] at hstep
    exact hstep

/-- Two gids for two contexts. -/
def pairGid (i : Fin 2) : Gid := .padded [UInt8.ofNat i + 1]

/-- The first context makes a node known, and then fails to publish a node whose
name cannot be written. -/
def talkerSteps : List (Network.Step (Fin 2)) :=
  [.prepare 0 (.changeNode ⟨"talker", "/"⟩ .add), .publish 0, .collect 0,
    .prepare 0 (.changeNode ⟨"\x00", "/"⟩ .add), .deliver 0 1, .publish 0, .listen 1, .listen 1]

def talkerRun : Observed (Fin 2) :=
  (start pairGid (fun _ => "/") fun _ => .machine).run talkerSteps

theorem convergence_talkerRun :
    Function.Injective pairGid ∧ (0 : Fin 2) ≠ 1 ∧
      talkerRun.heard 1 0 = talkerRun.published 0 ∧
      ((talkerRun.context 0).ownNodes).length = 2 ∧
      (talkerRun.context 1).entry (pairGid 0) = some ⟨"", [.ofName ⟨"talker", "/"⟩]⟩ := by
  have hpair : ∀ a b, pairGid a = pairGid b → a = b := by decide +kernel
  have hgid : Function.Injective pairGid := fun a b => hpair a b
  have hall : talkerRun.heard 1 0 = talkerRun.published 0 := by decide +kernel
  have hsettled : talkerRun.settled 0 = some [.ofName ⟨"talker", "/"⟩] := by decide +kernel
  have hne : (0 : Fin 2) ≠ 1 := by decide
  obtain ⟨-, -, -, hconverged, -⟩ :=
    convergence hgid (fun _ => "/") (fun _ => .machine) talkerSteps hne
  refine ⟨hgid, hne, hall, by decide +kernel, ?_⟩
  have hentry := hconverged hall
  rw [show (start pairGid (fun _ => "/") fun _ => .machine).run talkerSteps = talkerRun from rfl,
    hsettled] at hentry
  exact hentry

end Observed

end DiscoveryGraph
