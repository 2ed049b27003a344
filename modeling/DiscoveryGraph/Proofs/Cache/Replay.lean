import DiscoveryGraph.Proofs.Cache.Subscription
import DiscoveryGraph.Proofs.Graph.Keys

/-!
# Following a graph by its events

Whoever knows the keys of the graph at the time of a subscription, and applies
each event that is announced afterwards, has the keys of the graph at any time.
None of these events is a surprise: no entity is entered twice, and nothing is
removed that is not there.
-/

namespace DiscoveryGraph.Cache

variable {c : Cache} {s : Step} {e : Event}

theorem keys_step_of_announces (h : c.announces? s = some e) :
    c.graph.keys.Admits e ∧ (c.step s).graph.keys = c.graph.keys.apply e := by
  cases s with
  | perform op =>
      obtain ⟨r, -, hnone, -⟩ | ⟨r, next, heffect, hsome, hperform⟩ := c.perform_cases op
      · rw [hnone] at h
        contradiction
      · have he : op.event = e := Option.some.inj (hsome.symm.trans h)
        have hnext : (c.step (.perform op)).graph = next := by rw [step, hperform]; rfl
        rw [hnext, ← he]
        exact heffect.keys_eq
  | _ => contradiction

theorem keys_run (c : Cache) (steps : List Step) :
    c.graph.keys.AdmitsAll (c.announced steps) ∧
      (c.run steps).graph.keys = c.graph.keys.replay (c.announced steps) := by
  induction steps generalizing c with
  | nil => exact ⟨Keys.admitsAll_nil _, rfl⟩
  | cons s steps ih =>
      obtain ⟨hadmits, hkeys⟩ := ih (c.step s)
      rw [announced]
      cases h : c.announces? s with
      | none =>
          rw [graph_step_of_silent h] at hadmits hkeys
          exact ⟨hadmits, hkeys⟩
      | some e =>
          obtain ⟨hfirst, hnext⟩ := keys_step_of_announces h
          rw [hnext] at hadmits hkeys
          exact ⟨Keys.admitsAll_cons hfirst hadmits, hkeys⟩

/-- From the keys at the time of a subscription the events that are announced
afterwards lead to the current keys, and each of them fits the keys at its time.
A receiver that is still subscribed has got all of them, so that what it has
taken and what is before it lead there as well. -/
theorem replay_since_subscription (c : Cache) (steps : List Step) :
    let number := c.subscribe.1
    let opened := c.subscribe.2
    let events := opened.announced steps
    c.graph.keys.replay events = (opened.run steps).graph.keys ∧
      (∀ before e after, events = before ++ e :: after → (c.graph.keys.replay before).Admits e) ∧
      ∀ channel, (opened.run steps).channels[number]? = some channel →
        channel.attached = true → channel.received = true →
          c.graph.keys.replay (opened.taken number steps ++ channel.queue) =
            (opened.run steps).graph.keys := by
  intro number opened events
  have hfresh : opened.channels[number]? = some .fresh := c.getElem?_channels_subscribe
  obtain ⟨hadmits, hkeys⟩ := keys_run opened steps
  refine ⟨hkeys.symm, hadmits, ?_⟩
  intro channel hchannel hattached hreceived
  rw [channel_reception hfresh, Option.some_inj] at hchannel
  rw [← hchannel] at hattached hreceived
  have hlost : (opened.reception number steps).lost = [] :=
    (Reception.Sound.ofHistory _).lost_eq hreceived
  have hdelivered : (opened.reception number steps).delivered = events :=
    (Reception.delivered_of_attached hattached).trans (announced_reception number opened steps)
  rw [Reception.delivered, hlost, List.append_nil, taken_reception hfresh, hchannel] at hdelivered
  rw [hdelivered]
  exact hkeys.symm

end DiscoveryGraph.Cache
