import DiscoveryGraph.Proofs.Cache.Runs
import Mathlib.Data.List.Induction

/-!
# What one receiver gets

The history of a channel consists of the events that are offered to it and of
the acts of its receiver.  Beside the channel we write down which events were
announced since it was opened, which ones the receiver has taken, and which ones
it left behind when it ended.

As long as the channel is attached nothing is missing: the receiver has taken or
left behind every event, or has it before it.  The first event that finds the
channel blocked detaches it, and what was delivered until then remains all that
is delivered.
-/

namespace DiscoveryGraph

namespace Channel

/-- What can happen to a channel. -/
inductive Entry
  | offered (e : Event)
  | act (a : Act)
  deriving DecidableEq

/-- The channel after an entry of its history. -/
def after (c : Channel) : Entry → Channel
  | .offered e => c.offer e
  | .act a => (c.act a).2

/-- The events that the receiver gets. -/
def answer (c : Channel) : Entry → List Event
  | .offered _ => []
  | .act a => (c.act a).1

/-- The event that is offered, if one is. -/
def Entry.event? : Entry → Option Event
  | offered e => some e
  | act _ => none

/-- The channel is full, or its receiver is gone. -/
def Blocked (c : Channel) : Prop := c.queue.length = channelCapacity ∨ c.received = false

instance (c : Channel) : Decidable c.Blocked := inferInstanceAs (Decidable (_ ∨ _))

theorem not_blocked_iff {c : Channel} :
    ¬ c.Blocked ↔ c.queue.length ≠ channelCapacity ∧ c.received = true := by
  rw [Blocked, not_or, Bool.not_eq_false]

/-- An event is ignored, or it finds the channel blocked and detaches it, or it
is queued. -/
theorem offer_cases {c : Channel} (hlength : c.queue.length ≤ channelCapacity) (e : Event) :
    (c.attached = false ∧ c.offer e = c) ∨
    (c.attached = true ∧ c.Blocked ∧ c.offer e = { c with attached := false }) ∨
    (c.attached = true ∧ ¬ c.Blocked ∧ c.offer e = { c with queue := c.queue ++ [e] }) := by
  cases hattached : c.attached with
  | false => exact .inl ⟨rfl, by simp [offer, hattached]⟩
  | true =>
      refine .inr ?_
      by_cases hblocked : c.Blocked
      · refine .inl ⟨rfl, hblocked, ?_⟩
        have hfull : ¬ (c.received = true ∧ c.queue.length < channelCapacity) := by
          rintro ⟨hreceived, hlt⟩
          rcases hblocked with hfull | hgone
          · omega
          · rw [hreceived] at hgone
            contradiction
        simp only [offer, hattached, if_true, if_neg hfull]
      · refine .inr ⟨rfl, hblocked, ?_⟩
        have hroom : c.received = true ∧ c.queue.length < channelCapacity := by
          obtain ⟨hlt, hreceived⟩ := not_blocked_iff.mp hblocked
          exact ⟨hreceived, by omega⟩
        simp only [offer, hattached, if_true, if_pos hroom]

end Channel

/-- A channel, and what has been written down about it since it was opened. -/
structure Reception where
  channel : Channel
  announced : List Event
  taken : List Event
  /-- The events that the receiver left behind when it ended. -/
  lost : List Event

namespace Reception

def start : Reception := ⟨.fresh, [], [], []⟩

/-- What is written down after another entry of the history. -/
def extend (r : Reception) (x : Channel.Entry) : Reception where
  channel := r.channel.after x
  announced := r.announced ++ x.event?.toList
  taken := r.taken ++ r.channel.answer x
  lost := if x = .act .drop then r.lost ++ r.channel.queue else r.lost

def ofHistory (history : List Channel.Entry) : Reception := history.foldl extend start

theorem ofHistory_concat (history : List Channel.Entry) (x : Channel.Entry) :
    ofHistory (history ++ [x]) = (ofHistory history).extend x := by
  simp [ofHistory]

/-- What the receiver has taken, has before it, and left behind, the oldest event
first. -/
def delivered (r : Reception) : List Event := r.taken ++ r.channel.queue ++ r.lost

variable {r : Reception} {history : List Channel.Entry}

theorem channel_foldl (history : List Channel.Entry) (r : Reception) :
    (history.foldl extend r).channel = history.foldl Channel.after r.channel := by
  induction history generalizing r with
  | nil => rfl
  | cons x history ih => exact ih (r.extend x)

theorem announced_foldl (history : List Channel.Entry) (r : Reception) :
    (history.foldl extend r).announced =
      r.announced ++ history.filterMap Channel.Entry.event? := by
  induction history generalizing r with
  | nil => simp
  | cons x history ih =>
      rw [List.foldl_cons, ih, extend, List.append_assoc, List.filterMap_cons]
      cases x.event? <;> rfl

theorem announced_ofHistory (history : List Channel.Entry) :
    (ofHistory history).announced = history.filterMap Channel.Entry.event? :=
  announced_foldl history start

/-! ## What holds at any time -/

/-- Only a receiver that is gone has left events behind, its queue is empty, and
no queue is longer than the capacity. -/
structure Sound (r : Reception) : Prop where
  lost_eq : r.channel.received = true → r.lost = []
  queue_eq : r.channel.received = false → r.channel.queue = []
  length_le : r.channel.queue.length ≤ channelCapacity

namespace Sound

theorem start : Reception.start.Sound where
  lost_eq _ := rfl
  queue_eq _ := rfl
  length_le := Nat.zero_le _

theorem offered (h : r.Sound) (e : Event) : (r.extend (.offered e)).Sound := by
  obtain ⟨-, hoffer⟩ | ⟨-, -, hoffer⟩ | ⟨-, hroom, hoffer⟩ :=
    Channel.offer_cases h.length_le e
  · simp only [extend, Channel.after, hoffer]
    exact ⟨h.lost_eq, h.queue_eq, h.length_le⟩
  · simp only [extend, Channel.after, hoffer]
    exact ⟨h.lost_eq, h.queue_eq, h.length_le⟩
  · obtain ⟨hlt, hreceived⟩ := Channel.not_blocked_iff.mp hroom
    have hlength := h.length_le
    simp only [extend, Channel.after, hoffer]
    refine ⟨h.lost_eq, ?_, ?_⟩
    · intro hgone
      rw [hreceived] at hgone
      contradiction
    · simp only [List.length_append, List.length_singleton]
      omega

theorem act (h : r.Sound) (a : Channel.Act) : (r.extend (.act a)).Sound := by
  cases a with
  | receive =>
      refine ⟨h.lost_eq, ?_, ?_⟩
      · intro hgone
        have hqueue : r.channel.queue = [] := h.queue_eq hgone
        simp [extend, Channel.after, Channel.act, Channel.receive, hqueue]
      · have hlength := h.length_le
        simp only [extend, Channel.after, Channel.act, Channel.receive, List.length_tail]
        omega
  | drain => exact ⟨h.lost_eq, fun _ => rfl, Nat.zero_le _⟩
  | drop =>
      refine ⟨?_, fun _ => rfl, Nat.zero_le _⟩
      intro hreceived
      contradiction

theorem extend (h : r.Sound) (x : Channel.Entry) : (r.extend x).Sound := by
  cases x with
  | offered e => exact h.offered e
  | act a => exact h.act a

theorem ofHistory (history : List Channel.Entry) : (Reception.ofHistory history).Sound := by
  induction history using List.reverseRecOn with
  | nil => exact start
  | append_singleton history x ih =>
      rw [ofHistory_concat]
      exact ih.extend x

end Sound

/-! ## What reaches the receiver -/

/-- What the receiver does itself neither adds events to those that reached it
nor loses any. -/
theorem delivered_act (h : r.Sound) (a : Channel.Act) :
    (r.extend (.act a)).delivered = r.delivered ∧
      (r.extend (.act a)).channel.attached = r.channel.attached := by
  cases a with
  | receive =>
      refine ⟨?_, rfl⟩
      cases hqueue : r.channel.queue <;>
        simp [delivered, extend, Channel.after, Channel.answer, Channel.act, Channel.receive,
          hqueue]
  | drain =>
      refine ⟨?_, rfl⟩
      simp [delivered, extend, Channel.after, Channel.answer, Channel.act, Channel.drain]
  | drop =>
      refine ⟨?_, rfl⟩
      cases hreceived : r.channel.received with
      | true =>
          simp [delivered, extend, Channel.after, Channel.answer, Channel.act, Channel.drop,
            h.lost_eq hreceived]
      | false =>
          simp [delivered, extend, Channel.after, Channel.answer, Channel.act, Channel.drop,
            h.queue_eq hreceived]

/-- An event that is offered to an attached channel reaches the receiver, unless
the channel is blocked and thereby becomes detached. -/
theorem delivered_offered (h : r.Sound) (hattached : r.channel.attached = true) (e : Event) :
    (r.channel.Blocked ∧ (r.extend (.offered e)).channel.attached = false ∧
      (r.extend (.offered e)).delivered = r.delivered) ∨
    (¬ r.channel.Blocked ∧ (r.extend (.offered e)).channel.attached = true ∧
      (r.extend (.offered e)).delivered = r.delivered ++ [e]) := by
  obtain ⟨hdetached, -⟩ | ⟨-, hblocked, hoffer⟩ | ⟨-, hroom, hoffer⟩ :=
    Channel.offer_cases h.length_le e
  · rw [hattached] at hdetached
    contradiction
  · refine .inl ⟨hblocked, ?_, ?_⟩
    · simp only [extend, Channel.after, hoffer]
    · simp [delivered, extend, Channel.after, Channel.answer, hoffer]
  · have hreceived : r.channel.received = true := (Channel.not_blocked_iff.mp hroom).2
    refine .inr ⟨hroom, ?_, ?_⟩
    · simp only [extend, Channel.after, hoffer, hattached]
    · simp [delivered, extend, Channel.after, Channel.answer, hoffer, h.lost_eq hreceived]

/-- Once the channel is detached nothing reaches the receiver any more. -/
theorem delivered_of_detached (h : r.Sound) (hdetached : r.channel.attached = false)
    (x : Channel.Entry) :
    (r.extend x).delivered = r.delivered ∧ (r.extend x).channel.attached = false := by
  cases x with
  | offered e =>
      have hoffer : r.channel.offer e = r.channel := by simp [Channel.offer, hdetached]
      simp [delivered, extend, Channel.after, Channel.answer, hoffer, hdetached]
  | act a =>
      obtain ⟨hdelivered, hattached⟩ := delivered_act h a
      exact ⟨hdelivered, hattached.trans hdetached⟩

/-- Some event in the history found the channel blocked. -/
def Refused (history : List Channel.Entry) : Prop :=
  ∃ before e after, history = before ++ .offered e :: after ∧
    (ofHistory before).channel.Blocked

theorem not_refused_nil : ¬ Refused [] := by
  rintro ⟨before, e, after, h, -⟩
  simp at h

theorem refused_concat_iff {x : Channel.Entry} :
    Refused (history ++ [x]) ↔
      Refused history ∨ ∃ e, x = .offered e ∧ (ofHistory history).channel.Blocked := by
  constructor
  · rintro ⟨before, e, after, h, hblocked⟩
    rcases List.eq_nil_or_concat after with rfl | ⟨after, last, rfl⟩
    · obtain ⟨rfl, hx⟩ := List.append_inj' h rfl
      exact .inr ⟨e, List.singleton_inj.mp hx, hblocked⟩
    · have h : history ++ [x] = (before ++ .offered e :: after) ++ [last] := by simpa using h
      exact .inl ⟨before, e, after, (List.append_inj' h rfl).1, hblocked⟩
  · rintro (⟨before, e, after, rfl, hblocked⟩ | ⟨e, rfl, hblocked⟩)
    · exact ⟨before, e, after ++ [x], by simp, hblocked⟩
    · exact ⟨history, e, [], rfl, hblocked⟩

/-- Either no event found the channel blocked, and then every event that was
announced has reached the receiver.  Or there was a first such event, and then
those before it have reached the receiver and no other ever will. -/
theorem whole_or_cut (history : List Channel.Entry) :
    ((ofHistory history).channel.attached = true ∧ ¬ Refused history ∧
      (ofHistory history).delivered = (ofHistory history).announced) ∨
    ((ofHistory history).channel.attached = false ∧
      ∃ before e after, history = before ++ .offered e :: after ∧
        (ofHistory before).channel.attached = true ∧ (ofHistory before).channel.Blocked ∧
        (ofHistory history).delivered = (ofHistory before).announced) := by
  -- A detached channel stays so.  An attached one is detached by the last entry only
  -- if that is an event which finds it blocked, and then it is the first such event.
  induction history using List.reverseRecOn with
  | nil => exact .inl ⟨rfl, not_refused_nil, rfl⟩
  | append_singleton history x ih =>
      have hsound := Sound.ofHistory history
      rw [ofHistory_concat]
      obtain ⟨hattached, hnone, hwhole⟩ | ⟨hdetached, before, e, after, hsplit, hfirst, hblocked,
        hdelivered⟩ := ih
      · rw [refused_concat_iff, not_or]
        cases x with
        | offered e =>
            obtain ⟨hblocked, hdetached, hsame⟩ | ⟨hroom, hstill, hmore⟩ :=
              delivered_offered hsound hattached e
            · exact .inr ⟨hdetached, history, e, [], rfl, hattached, hblocked,
                hsame.trans hwhole⟩
            · refine .inl ⟨hstill, ⟨hnone, fun h => hroom h.choose_spec.2⟩, ?_⟩
              rw [hmore, hwhole]
              rfl
        | act a =>
            obtain ⟨hsame, hstill⟩ := delivered_act hsound a
            refine .inl ⟨hstill.trans hattached, ⟨hnone, by simp⟩, ?_⟩
            rw [hsame, hwhole]
            exact (List.append_nil _).symm
      · obtain ⟨hsame, hstill⟩ := delivered_of_detached hsound hdetached x
        refine .inr ⟨hstill, before, e, after ++ [x], ?_, hfirst, hblocked, ?_⟩
        · rw [hsplit]
          simp
        · rw [hsame, hdelivered]

theorem attached_iff_not_refused (history : List Channel.Entry) :
    (ofHistory history).channel.attached = true ↔ ¬ Refused history := by
  obtain ⟨hattached, hnone, -⟩ | ⟨hdetached, before, e, after, hsplit, -, hblocked, -⟩ :=
    whole_or_cut history
  · exact iff_of_true hattached hnone
  · have hrefused : Refused history := ⟨before, e, after, hsplit, hblocked⟩
    rw [hdetached]
    simp [hrefused]

theorem delivered_of_attached (h : (ofHistory history).channel.attached = true) :
    (ofHistory history).delivered = (ofHistory history).announced := by
  obtain ⟨-, -, hwhole⟩ | ⟨hdetached, -⟩ := whole_or_cut history
  · exact hwhole
  · rw [h] at hdetached
    contradiction

theorem delivered_prefix_announced (history : List Channel.Entry) :
    (ofHistory history).delivered <+: (ofHistory history).announced := by
  obtain ⟨-, -, hwhole⟩ | ⟨-, before, e, after, hsplit, -, -, hdelivered⟩ :=
    whole_or_cut history
  · exact hwhole ▸ List.prefix_refl _
  · rw [hdelivered, announced_ofHistory, announced_ofHistory, hsplit, List.filterMap_append]
    exact List.prefix_append _ _

end Reception

end DiscoveryGraph
