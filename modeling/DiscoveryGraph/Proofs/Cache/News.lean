import DiscoveryGraph.Context.Listener
import DiscoveryGraph.Proofs.Cache.Runs
import DiscoveryGraph.Proofs.Graph.Entries
import Mathlib.Data.List.Induction

/-!
# What messages do to a cache

A message is news to a participant if it can be read and comes from another one.
Everything else is ignored.  News replaces the nodes of its sender, so that for each
sender the last news decides, and everybody who watches the cache is told once about
each piece of news.
-/

namespace DiscoveryGraph.Cache

/-- What the message tells the participant `own` about another one. -/
def news? (own : Gid) (sample : Sample) : Option Snapshot :=
  (Snapshot.decode sample).toOption.filter (·.participant ≠ own)

theorem news?_eq_some_iff {own : Gid} {sample : Sample} {s : Snapshot} :
    news? own sample = some s ↔ Snapshot.decode sample = .ok s ∧ s.participant ≠ own := by
  rw [news?, Option.filter_eq_some_iff]
  cases Snapshot.decode sample <;> simp [Except.toOption]

/-- The sender of the message, if it can be read. -/
def sender? (sample : Sample) : Option Gid :=
  (Snapshot.decode sample).toOption.map (·.participant)

variable {own : Gid} {sample : Sample}

theorem sender?_of_decode {s : Snapshot} (h : Snapshot.decode sample = .ok s) :
    sender? sample = some s.participant := by
  rw [sender?, h]
  rfl

theorem news?_eq_none_iff :
    news? own sample = none ↔ ∀ s, Snapshot.decode sample = .ok s → s.participant = own := by
  simp only [Option.eq_none_iff_forall_ne_some, ne_eq, news?_eq_some_iff, not_and, not_not]

/-- The news from a sender comes from its messages. -/
theorem filter_filterMap_news? (own gid : Gid) (samples : List Sample) :
    (samples.filterMap (news? own)).filter (·.participant = gid) =
      (samples.filter (sender? · = some gid)).filterMap (news? own) := by
  rw [List.filter_filterMap, List.filterMap_filter]
  congr 1
  funext sample
  ext s
  simp only [Option.filter_eq_some_iff, Option.ite_none_right_eq_some, decide_eq_true_eq,
    news?_eq_some_iff]
  constructor
  · rintro ⟨⟨hdecode, hother⟩, hs⟩
    exact ⟨by rw [sender?_of_decode hdecode, hs], hdecode, hother⟩
  · rintro ⟨hsender, hdecode, hother⟩
    rw [sender?_of_decode hdecode] at hsender
    exact ⟨⟨hdecode, hother⟩, Option.some.inj hsender⟩

theorem learn_of_news? {s : Snapshot} (h : news? own sample = some s) (c : Cache) :
    c.learn own sample = (c.perform (.update s)).2 := by
  obtain ⟨hdecode, hother⟩ := news?_eq_some_iff.mp h
  rw [learn, hdecode]
  exact if_neg hother

theorem learn_of_news?_eq_none (h : news? own sample = none) (c : Cache) :
    c.learn own sample = c := by
  rw [learn]
  cases hdecode : Snapshot.decode sample with
  | error e => rfl
  | ok s =>
      by_cases hown : s.participant = own
      · exact if_pos hown
      · have hsome := news?_eq_some_iff.mpr ⟨hdecode, hown⟩
        rw [h] at hsome
        contradiction

/-- The cache after several pieces of news. -/
def hear (c : Cache) (news : List Snapshot) : Cache :=
  news.foldl (fun c s => (c.perform (.update s)).2) c

theorem foldl_learn (own : Gid) (c : Cache) (samples : List Sample) :
    samples.foldl (learn own) c = c.hear (samples.filterMap (news? own)) := by
  induction samples generalizing c with
  | nil => rfl
  | cons sample samples ih =>
      rw [List.foldl_cons, ih]
      cases h : news? own sample with
      | none => rw [List.filterMap_cons_none h, learn_of_news?_eq_none h]
      | some s =>
          rw [List.filterMap_cons_some h, learn_of_news? h]
          rfl

theorem hear_concat (c : Cache) (news : List Snapshot) (s : Snapshot) :
    c.hear (news ++ [s]) =
      { c.hear news with graph := (c.hear news).graph.after (.update s) }.notify
        (.participantChanged s.participant) := by
  simp only [hear, List.foldl_append]
  rfl

/-! ## The graph -/

theorem entities_hear (c : Cache) (news : List Snapshot) (kind : EndpointKind) :
    (c.hear news).graph.entities kind = c.graph.entities kind := by
  induction news using List.reverseRecOn with
  | nil => rfl
  | append_singleton news s ih =>
      have hkind : (Operation.update s).kind? ≠ some kind := by simp [Operation.kind?]
      rw [hear_concat]
      exact ((c.hear news).graph.entities_after_of_ne kind hkind).trans ih

theorem getElem?_participants_hear (c : Cache) (news : List Snapshot) (gid : Gid) :
    (c.hear news).graph.participants[gid]? =
      match (news.filter (·.participant = gid)).getLast? with
      | none => c.graph.participants[gid]?
      | some s => some { c.graph.participantOrEmpty gid with nodes := s.nodes } := by
  induction news using List.reverseRecOn with
  | nil => rfl
  | append_singleton news s ih =>
      have hnext : (c.hear (news ++ [s])).graph = (c.hear news).graph.after (.update s) := by
        rw [hear_concat]
        rfl
      rw [hnext, Graph.getElem?_participants_after, Operation.onParticipant, List.filter_append,
        ih]
      by_cases hs : s.participant = gid
      · cases (news.filter (·.participant = gid)).getLast? <;> simp [hs, Graph.participantOrEmpty]
      · simp [hs]

theorem participants_hear_own (c : Cache) (samples : List Sample) :
    (c.hear (samples.filterMap (news? own))).graph.participants[own]? =
      c.graph.participants[own]? := by
  have hnone : (samples.filterMap (news? own)).filter (·.participant = own) = [] := by
    rw [List.filter_eq_nil_iff]
    intro s hs
    obtain ⟨sample, -, hnews⟩ := List.mem_filterMap.mp hs
    simpa using (news?_eq_some_iff.mp hnews).2
  rw [getElem?_participants_hear, hnone]
  rfl

/-- Only the order of messages from the same sender matters. -/
theorem graph_hear_congr {samples others : List Sample}
    (h : ∀ gid, others.filter (sender? · = some gid) = samples.filter (sender? · = some gid))
    (c : Cache) :
    (c.hear (others.filterMap (news? own))).graph =
      (c.hear (samples.filterMap (news? own))).graph := by
  apply Graph.ext
  · exact (c.entities_hear _ .publisher).trans (c.entities_hear _ .publisher).symm
  · exact (c.entities_hear _ .subscription).trans (c.entities_hear _ .subscription).symm
  · apply Std.ExtTreeMap.ext_getElem?
    intro gid
    rw [getElem?_participants_hear, getElem?_participants_hear, filter_filterMap_news?,
      filter_filterMap_news?, h gid]

/-! ## Those who watch -/

theorem callback_hear (c : Cache) (news : List Snapshot) :
    (c.hear news).callback = c.callback := by
  induction news using List.reverseRecOn with
  | nil => rfl
  | append_singleton news s ih =>
      rw [hear_concat]
      exact ih

theorem runs_hear (c : Cache) (news : List Snapshot) :
    (c.hear news).runs = match c.callback with
      | none => c.runs
      | some k => c.runs.modify k (· + news.length) := by
  induction news using List.reverseRecOn with
  | nil =>
      cases c.callback with
      | none => rfl
      | some k => exact (List.modify_id k c.runs).symm
  | append_singleton news s ih =>
      rw [hear_concat, notify]
      simp only [callback_hear, ih]
      cases c.callback with
      | none => rfl
      | some k =>
          simp only [List.modify_modify_eq, List.length_append, List.length_singleton]
          rfl

theorem channels_hear (c : Cache) (news : List Snapshot) :
    (c.hear news).channels = c.channels.map fun channel =>
      (news.map fun s => Event.participantChanged s.participant).foldl Channel.offer channel := by
  induction news using List.reverseRecOn with
  | nil => simp [hear]
  | append_singleton news s ih =>
      rw [hear_concat, notify]
      simp [ih]

end DiscoveryGraph.Cache
