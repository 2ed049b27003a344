import DiscoveryGraph.Proofs.Cache.Reception

/-!
# Subscriptions in a run

In a run of a cache each channel has a history of its own: the events that are
announced, and what its receiver does in between.  The channel that the cache
holds is the one that this history leads to, and the answers that the cache gives
to the receiver are those that the history gives.  So what was said about one
channel holds of every subscription, whatever else is subscribed.
-/

namespace DiscoveryGraph.Cache

/-- What a step adds to the history of the channel `n`. -/
def recorded? (c : Cache) (n : Nat) : Step → Option Channel.Entry
  | .perform op => (c.announces? (.perform op)).map .offered
  | .onChannel number a => if number = n then some (.act a) else none
  | _ => none

def history (n : Nat) (c : Cache) : List Step → List Channel.Entry
  | [] => []
  | s :: steps => (c.recorded? n s).toList ++ (c.step s).history n steps

/-- The events that the receiver of the channel `n` gets in a step. -/
def answer (c : Cache) (n : Nat) : Step → List Event
  | .onChannel number a => if number = n then (c.onChannel n (·.act a)).1.getD [] else []
  | _ => []

/-- All events that the receiver of the channel `n` gets in a run. -/
def taken (n : Nat) (c : Cache) : List Step → List Event
  | [] => []
  | s :: steps => c.answer n s ++ (c.step s).taken n steps

/-- What can be written down about the channel `n`, if it is fresh at first. -/
def reception (n : Nat) (c : Cache) (steps : List Step) : Reception :=
  .ofHistory (c.history n steps)

/-- Some event of the run found the channel `n` blocked. -/
def Refused (n : Nat) (c : Cache) (steps : List Step) : Prop :=
  ∃ before s after channel, steps = before ++ s :: after ∧
    (c.run before).announces? s ≠ none ∧
    (c.run before).channels[n]? = some channel ∧ channel.Blocked

variable {c d : Cache} {n : Nat} {channel : Channel} {s : Step} {steps others : List Step}

/-! ## The channel that a history leads to -/

theorem onChannel_eq {α : Type} (h : c.channels[n]? = some channel)
    (f : Channel → α × Channel) :
    c.onChannel n f =
      (some (f channel).1, { c with channels := c.channels.set n (f channel).2 }) := by
  rw [onChannel, h]

theorem getElem?_channels_onChannel {α : Type} (h : c.channels[n]? = some channel)
    (number : Nat) (f : Channel → α × Channel) :
    (c.onChannel number f).2.channels[n]? =
      some (if number = n then (f channel).2 else channel) := by
  by_cases hnumber : number = n
  · have hlt : n < c.channels.length := (List.getElem?_eq_some_iff.mp h).1
    rw [hnumber, onChannel_eq h, if_pos rfl]
    exact List.getElem?_set_self hlt
  · rw [if_neg hnumber]
    unfold onChannel
    cases c.channels[number]? with
    | none => exact h
    | some other => exact (List.getElem?_set_ne hnumber).trans h

theorem getElem?_channels_step (h : c.channels[n]? = some channel) (s : Step) :
    (c.step s).channels[n]? = some ((c.recorded? n s).toList.foldl Channel.after channel) := by
  cases s with
  | perform op =>
      obtain ⟨r, -, hnone, hperform⟩ | ⟨r, next, -, hsome, hperform⟩ := c.perform_cases op
      · simp only [step, recorded?, hperform, hnone]
        exact h
      · simp only [step, recorded?, hperform, hsome, notify, List.getElem?_map, h]
        rfl
  | setCallback => exact h
  | clearCallback => exact h
  | subscribe =>
      have hlt : n < c.channels.length := (List.getElem?_eq_some_iff.mp h).1
      exact (List.getElem?_append_left hlt).trans h
  | onChannel number a =>
      rw [step, recorded?, getElem?_channels_onChannel h]
      by_cases hnumber : number = n
      · rw [if_pos hnumber, if_pos hnumber]
        rfl
      · rw [if_neg hnumber, if_neg hnumber]
        rfl

theorem getElem?_channels_run (h : c.channels[n]? = some channel) (steps : List Step) :
    (c.run steps).channels[n]? = some ((c.history n steps).foldl Channel.after channel) := by
  induction steps generalizing c channel with
  | nil => exact h
  | cons s steps ih =>
      rw [history, List.foldl_append]
      exact ih (getElem?_channels_step h s)

theorem answer_eq (h : c.channels[n]? = some channel) (s : Step) :
    c.answer n s = (c.recorded? n s).toList.flatMap channel.answer := by
  cases s with
  | onChannel number a =>
      by_cases hnumber : number = n
      · simp [answer, recorded?, hnumber, onChannel_eq h, Channel.answer]
      · simp [answer, recorded?, hnumber]
  | perform op =>
      simp only [answer, recorded?]
      cases c.announces? (.perform op) <;> rfl
  | _ => rfl

theorem taken_foldl_history {r : Reception} (h : c.channels[n]? = some r.channel)
    (steps : List Step) :
    ((c.history n steps).foldl Reception.extend r).taken = r.taken ++ c.taken n steps := by
  induction steps generalizing c r with
  | nil => exact (List.append_nil _).symm
  | cons s steps ih =>
      have hchannel := getElem?_channels_step h s
      rw [← Reception.channel_foldl] at hchannel
      rw [history, taken, List.foldl_append, ih hchannel, answer_eq h]
      cases c.recorded? n s <;> simp [Reception.extend]

/-- Whatever is announced is offered to the channel, and nothing else is. -/
theorem event?_recorded? (c : Cache) (n : Nat) (s : Step) :
    (c.recorded? n s).bind Channel.Entry.event? = c.announces? s := by
  cases s with
  | perform op =>
      rw [recorded?]
      cases c.announces? (.perform op) <;> rfl
  | onChannel number a =>
      rw [recorded?]
      by_cases hnumber : number = n
      · rw [if_pos hnumber]
        rfl
      · rw [if_neg hnumber]
        rfl
  | _ => rfl

theorem filterMap_event?_history (n : Nat) (c : Cache) (steps : List Step) :
    (c.history n steps).filterMap Channel.Entry.event? = c.announced steps := by
  induction steps generalizing c with
  | nil => rfl
  | cons s steps ih =>
      rw [history, announced, List.filterMap_append, ih, ← event?_recorded? c n s]
      cases c.recorded? n s with
      | none => rfl
      | some x => cases hx : x.event? <;> simp [hx]

theorem channel_reception (h : c.channels[n]? = some .fresh) (steps : List Step) :
    (c.run steps).channels[n]? = some (c.reception n steps).channel := by
  rw [getElem?_channels_run h, reception, Reception.ofHistory, Reception.channel_foldl]
  rfl

theorem announced_reception (n : Nat) (c : Cache) (steps : List Step) :
    (c.reception n steps).announced = c.announced steps := by
  rw [reception, Reception.announced_ofHistory, filterMap_event?_history]

theorem taken_reception (h : c.channels[n]? = some .fresh) (steps : List Step) :
    (c.reception n steps).taken = c.taken n steps :=
  taken_foldl_history (r := .start) h steps

/-! ## Steps and entries -/

theorem history_append (n : Nat) (c : Cache) (before after : List Step) :
    c.history n (before ++ after) = c.history n before ++ (c.run before).history n after := by
  induction before generalizing c with
  | nil => rfl
  | cons s before ih =>
      rw [List.cons_append, history, history, ih, List.append_assoc]
      rfl

theorem recorded?_eq_offered_iff {e : Event} :
    c.recorded? n s = some (.offered e) ↔ c.announces? s = some e := by
  cases s with
  | perform op => simp [recorded?]
  | onChannel number a => by_cases hnumber : number = n <;> simp [recorded?, announces?, hnumber]
  | _ => simp [recorded?, announces?]

/-- Each event in the history of a channel comes from a step of the run. -/
theorem exists_step_of_history {before after : List Channel.Entry} {e : Event}
    (h : c.history n steps = before ++ .offered e :: after) :
    ∃ earlier s later, steps = earlier ++ s :: later ∧
      (c.run earlier).announces? s = some e ∧ c.history n earlier = before := by
  -- A step adds at most one entry, so the steps up to the one that adds the event
  -- have the history before it.
  induction steps generalizing c before with
  | nil => simp [history] at h
  | cons s steps ih =>
      rw [history] at h
      cases hrecorded : c.recorded? n s with
      | none =>
          rw [hrecorded] at h
          obtain ⟨earlier, t, later, hsteps, hannounces, hbefore⟩ := ih h
          refine ⟨s :: earlier, t, later, by rw [hsteps, List.cons_append], hannounces, ?_⟩
          rw [history, hrecorded, hbefore]
          rfl
      | some x =>
          rw [hrecorded] at h
          cases before with
          | nil =>
              have hx : x = .offered e := (List.cons.inj h).1
              rw [hx, recorded?_eq_offered_iff] at hrecorded
              exact ⟨[], s, steps, rfl, hrecorded, rfl⟩
          | cons y before =>
              obtain ⟨hx, hrest⟩ := List.cons.inj h
              obtain ⟨earlier, t, later, hsteps, hannounces, hbefore⟩ := ih hrest
              refine ⟨s :: earlier, t, later, by rw [hsteps, List.cons_append], hannounces, ?_⟩
              rw [history, hrecorded, hbefore, hx]
              rfl

theorem refused_history_iff (h : c.channels[n]? = some .fresh) :
    Reception.Refused (c.history n steps) ↔ c.Refused n steps := by
  constructor
  · rintro ⟨before, e, after, hhistory, hblocked⟩
    obtain ⟨earlier, s, later, hsteps, hannounces, rfl⟩ := exists_step_of_history hhistory
    exact ⟨earlier, s, later, _, hsteps, by simp [hannounces], channel_reception h earlier,
      hblocked⟩
  · rintro ⟨before, s, after, channel, rfl, hannounces, hchannel, hblocked⟩
    obtain ⟨e, he⟩ := Option.ne_none_iff_exists'.mp hannounces
    rw [channel_reception h, Option.some_inj] at hchannel
    refine ⟨c.history n before, e, ((c.run before).step s).history n after, ?_, ?_⟩
    · rw [history_append, history, recorded?_eq_offered_iff.mpr he]
      rfl
    · rw [← hchannel] at hblocked
      exact hblocked

theorem attached_iff_not_refused (h : c.channels[n]? = some .fresh) :
    (c.reception n steps).channel.attached = true ↔ ¬ c.Refused n steps := by
  rw [← refused_history_iff h]
  exact Reception.attached_iff_not_refused _

/-- The first step whose event finds the channel blocked ends what its receiver
is told. -/
theorem exists_first_refused (h : c.channels[n]? = some .fresh)
    (hdetached : (c.reception n steps).channel.attached = false) :
    ∃ before s after, steps = before ++ s :: after ∧
      ¬ c.Refused n before ∧ c.Refused n (before ++ [s]) ∧
      (c.reception n steps).delivered = c.announced before := by
  obtain ⟨hattached, -⟩ | ⟨-, before, e, after, hhistory, hattached, hblocked, hdelivered⟩ :=
    Reception.whole_or_cut (c.history n steps)
  · rw [reception, hattached] at hdetached
    contradiction
  · obtain ⟨earlier, s, later, hsteps, hannounces, rfl⟩ := exists_step_of_history hhistory
    have hrefused : c.Refused n (earlier ++ [s]) :=
      ⟨earlier, s, [], _, rfl, by simp [hannounces], channel_reception h earlier, hblocked⟩
    refine ⟨earlier, s, later, hsteps, (attached_iff_not_refused h).mp hattached, hrefused, ?_⟩
    rw [← announced_reception n]
    exact hdelivered

/-! ## What other receivers do -/

/-- Whether a step is an operation, or an act of the receiver of the channel `n`. -/
def Step.concerns (n : Nat) : Step → Bool
  | .perform _ => true
  | .onChannel number _ => number = n
  | _ => false

theorem recorded?_congr (hgraph : c.graph = d.graph) (n : Nat) (s : Step) :
    c.recorded? n s = d.recorded? n s := by
  cases s <;> simp only [recorded?, announces?_congr hgraph]

theorem recorded?_of_not_concerns (hs : s.concerns n = false) : c.recorded? n s = none := by
  cases s with
  | perform op => contradiction
  | onChannel number a => exact if_neg (of_decide_eq_false hs)
  | _ => rfl

theorem graph_step_of_not_concerns (hs : s.concerns n = false) : (c.step s).graph = c.graph := by
  have hsilent : c.announces? s = none := by
    rw [← event?_recorded? c n s, recorded?_of_not_concerns hs]
    rfl
  exact graph_step_of_silent hsilent

/-- Other receivers leave no trace in the history of a channel. -/
theorem history_filter_concerns (hgraph : d.graph = c.graph) (steps : List Step) :
    d.history n (steps.filter (·.concerns n)) = c.history n steps := by
  -- The steps left out change other parts of the cache, so the two runs agree on
  -- the graph only.
  induction steps generalizing c d with
  | nil => rfl
  | cons s steps ih =>
      cases hs : s.concerns n with
      | true =>
          rw [List.filter_cons_of_pos hs, history, history, recorded?_congr hgraph n s,
            ih (graph_step_congr hgraph s)]
      | false =>
          have hs' : ¬ s.concerns n = true := by simp [hs]
          rw [List.filter_cons_of_neg hs', history, recorded?_of_not_concerns hs,
            ih (hgraph.trans (graph_step_of_not_concerns hs).symm)]
          rfl

theorem reception_eq_of_filter (h : others.filter (·.concerns n) = steps.filter (·.concerns n)) :
    c.reception n others = c.reception n steps := by
  rw [reception, reception, ← history_filter_concerns rfl others, h, history_filter_concerns rfl]

/-! ## Subscribing -/

theorem getElem?_channels_subscribe (c : Cache) :
    c.subscribe.2.channels[c.subscribe.1]? = some .fresh := by
  simp [subscribe]

/-- After a subscription anything may happen, and still the receiver gets what is
announced from then on, or a beginning of it.  It gets everything as long as it
is subscribed, and it is subscribed until an event finds its channel full or
finds that it is gone.  From that event on it gets nothing.  Here the events that
it leaves behind when it ends count as delivered.  Which events it gets depends
on the operations and on what it does itself, but not on any other receiver. -/
theorem subscription_whole_or_cut (c : Cache) (steps : List Step) :
    let number := c.subscribe.1
    let opened := c.subscribe.2
    let r := opened.reception number steps
    (opened.run steps).channels[number]? = some r.channel ∧
      r.announced = opened.announced steps ∧
      r.taken = opened.taken number steps ∧
      (r.channel.received = true → r.lost = []) ∧
      r.delivered <+: r.announced ∧
      (r.channel.attached = true ↔ ¬ opened.Refused number steps) ∧
      (r.channel.attached = true → r.delivered = r.announced) ∧
      (r.channel.attached = false →
        ∃ before s after, steps = before ++ s :: after ∧
          ¬ opened.Refused number before ∧ opened.Refused number (before ++ [s]) ∧
          r.delivered = opened.announced before) ∧
      ∀ others : List Step,
        others.filter (·.concerns number) = steps.filter (·.concerns number) →
          opened.taken number others = opened.taken number steps ∧
          (opened.run others).channels[number]? = (opened.run steps).channels[number]? := by
  intro number opened r
  have hfresh : opened.channels[number]? = some .fresh := c.getElem?_channels_subscribe
  refine ⟨channel_reception hfresh steps, announced_reception number opened steps,
    taken_reception hfresh steps, (Reception.Sound.ofHistory _).lost_eq,
    Reception.delivered_prefix_announced _, attached_iff_not_refused hfresh,
    Reception.delivered_of_attached, exists_first_refused hfresh, ?_⟩
  intro others hothers
  have hreception : opened.reception number others = r := reception_eq_of_filter hothers
  constructor
  · rw [← taken_reception hfresh, ← taken_reception hfresh, hreception]
  · rw [channel_reception hfresh, channel_reception hfresh, hreception]

-- A receiver that ends stays subscribed until the next event.
example :
    (empty.subscribe.2.run [.onChannel 0 .drop]).channels = [⟨[], true, false⟩] ∧
      (empty.subscribe.2.run
        [.onChannel 0 .drop, .perform (.addParticipant (.padded [1]) "")]).channels =
          [⟨[], false, false⟩] := by
  decide

end DiscoveryGraph.Cache
