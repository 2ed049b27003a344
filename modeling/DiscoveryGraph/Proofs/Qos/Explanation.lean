import DiscoveryGraph.Proofs.Qos.Basic
import Mathlib.Data.List.Basic
import Mathlib.Data.List.Infix
import Mathlib.Data.List.Nodup
import Mathlib.Data.List.Perm.Subperm
import Mathlib.Tactic.SplitIfs

/-!
# Verdicts and the entries that explain them

An explanation is a sequence of entries, and each entry ends with the only semicolon in it,
so that the entries can be read off the text in one way only.  They tell the verdict: there
are none if nothing conflicts and nothing is open, one to five errors if something
conflicts, and otherwise one to three warnings, no two of them about the same policy.
Settings that no rule looks at change neither verdict nor explanation.
-/

namespace DiscoveryGraph

/-! ## Entries of a text -/

/-- A text that ends with the only semicolon in it. -/
def Ended (text : String) : Prop :=
  ∃ body : List Char, ';' ∉ body ∧ text.toList = body ++ [';']

/-- The text consists of these entries, each of which ends with the only semicolon in it. -/
structure ReadsAs (text : String) (entries : List String) : Prop where
  eq_join : text = String.join entries
  ended : ∀ e ∈ entries, Ended e

/-- Between one and `most` entries, all of which begin with `mark`. -/
structure Marked (mark : String) (most : Nat) (entries : List String) : Prop where
  nonempty : entries ≠ []
  length_le : entries.length ≤ most
  begins : ∀ e ∈ entries, mark.toList <+: e.toList

theorem takeWhile_ne_append {body : List Char} (h : ';' ∉ body) (rest : List Char) :
    (body ++ ';' :: rest).takeWhile (· ≠ ';') = body := by
  have hbody : ∀ c ∈ body, decide (c ≠ ';') = true := by
    intro c hc
    simpa using ne_of_mem_of_not_mem hc h
  rw [List.takeWhile_append_of_pos hbody]
  simp

theorem Ended.append_inj {first first' : String} {rest rest' : List Char}
    (hfirst : Ended first) (hfirst' : Ended first')
    (h : first.toList ++ rest = first'.toList ++ rest') : first = first' ∧ rest = rest' := by
  obtain ⟨body, hbody, hfirst⟩ := hfirst
  obtain ⟨body', hbody', hfirst'⟩ := hfirst'
  rw [hfirst, hfirst', List.append_assoc, List.append_assoc] at h
  have hbodies : body = body' := by
    rw [← takeWhile_ne_append hbody rest, ← takeWhile_ne_append hbody' rest']
    exact congrArg _ h
  subst hbodies
  have hrest := List.append_cancel_left h
  exact ⟨String.toList_injective (hfirst.trans hfirst'.symm), (List.cons.inj hrest).2⟩

theorem Ended.ne_empty {text : String} (h : Ended text) : text ≠ "" := by
  rintro rfl
  obtain ⟨body, -, hbody⟩ := h
  exact List.append_ne_nil_of_right_ne_nil body (by simp) hbody.symm

theorem join_eq_empty_iff {entries : List String} (h : ∀ e ∈ entries, Ended e) :
    String.join entries = "" ↔ entries = [] := by
  cases entries with
  | nil => exact iff_of_true rfl rfl
  | cons e rest =>
      have hne := (h e List.mem_cons_self).ne_empty
      rw [String.join_cons, String.append_eq_empty_iff]
      simp [hne]

theorem ReadsAs.unique {text : String} {es es' : List String}
    (h : ReadsAs text es) (h' : ReadsAs text es') : es = es' := by
  obtain ⟨rfl, hes⟩ := h
  obtain ⟨hjoin, hes'⟩ := h'
  induction es generalizing es' with
  | nil => exact ((join_eq_empty_iff hes').mp hjoin.symm).symm
  | cons e es ih =>
      cases es' with
      | nil => exact (join_eq_empty_iff hes).mp hjoin
      | cons e' es' =>
          have hlists := congrArg String.toList hjoin
          rw [String.join_cons, String.join_cons, String.toList_append,
            String.toList_append] at hlists
          obtain ⟨rfl, hrest⟩ := Ended.append_inj (hes e List.mem_cons_self)
            (hes' e' List.mem_cons_self) hlists
          rw [ih (fun x hx => hes x (List.mem_cons_of_mem e hx)) (String.toList_injective hrest)
            (fun x hx => hes' x (List.mem_cons_of_mem e hx))]

/-! Facts about a written text are decided on its characters. -/

theorem ended_ofList {cs : List Char} (h : ';' ∉ cs.dropLast ∧ cs = cs.dropLast ++ [';']) :
    Ended (String.ofList cs) :=
  ⟨cs.dropLast, h.1, String.toList_ofList.trans h.2⟩

theorem semicolon_notMem_ofList {cs : List Char} (h : ';' ∉ cs) :
    ';' ∉ (String.ofList cs).toList := by
  rwa [String.toList_ofList]

theorem ofList_isPrefix_ofList_iff {cs ds : List Char} :
    (String.ofList cs).toList <+: (String.ofList ds).toList ↔ cs <+: ds := by
  rw [String.toList_ofList, String.toList_ofList]

theorem Marked.not_error_and_warning {most most' : Nat} {entries : List String}
    (herror : Marked "ERROR: " most entries) (hwarning : Marked "WARNING: " most' entries) :
    False := by
  obtain ⟨e, rest, rfl⟩ := List.exists_cons_of_ne_nil herror.nonempty
  have hor := List.prefix_or_prefix_of_prefix (herror.begins e List.mem_cons_self)
    (hwarning.begins e List.mem_cons_self)
  rw [ofList_isPrefix_ofList_iff, ofList_isPrefix_ofList_iff] at hor
  revert hor
  decide

/-! ## Conflicts -/

namespace Conflict

theorem ended_entry (c : Conflict) : Ended c.entry := by
  cases c <;> exact ended_ofList (by decide)

theorem mark_isPrefix_entry (c : Conflict) : "ERROR: ".toList <+: c.entry.toList := by
  cases c <;> exact ofList_isPrefix_ofList_iff.mpr (by decide)

/-- A duration gives rise to at most one of its two conflicts. -/
theorem notOffered_or_tooLong_eq_false (offered requested : Duration) :
    notOffered offered requested = false ∨ tooLong offered requested = false := by
  by_cases h : offered = .unspecified
  · simp [tooLong, h]
  · simp [notOffered, h]

end Conflict

theorem length_conflicts_le (offer request : Profile) :
    (conflicts offer request).length ≤ 5 := by
  have hnodup : (conflicts offer request).Nodup :=
    List.Nodup.filter _ (by decide : Conflict.all.Nodup)
  have hbound : ∀ a b : Conflict, b ≠ a → a.arises offer request = false →
      b.arises offer request = false → (conflicts offer request).length ≤ 5 := by
    intro a b hne ha hb
    have hsubset : conflicts offer request ⊆ (Conflict.all.erase a).erase b := by
      intro c hc
      rw [mem_conflicts_iff] at hc
      have hca : c ≠ a := by
        rintro rfl
        exact Bool.false_ne_true (ha.symm.trans hc)
      have hcb : c ≠ b := by
        rintro rfl
        exact Bool.false_ne_true (hb.symm.trans hc)
      exact (List.mem_erase_of_ne hcb).mpr ((List.mem_erase_of_ne hca).mpr c.mem_all)
    have hrest : b ∈ Conflict.all.erase a := (List.mem_erase_of_ne hne).mpr b.mem_all
    have hlength := (hnodup.subperm hsubset).length_le
    rw [List.length_erase_of_mem hrest, List.length_erase_of_mem a.mem_all] at hlength
    exact hlength
  obtain hdeadline | hdeadline :=
    Conflict.notOffered_or_tooLong_eq_false offer.deadline request.deadline
  · obtain hlease | hlease := Conflict.notOffered_or_tooLong_eq_false offer.lease request.lease
    · exact hbound .deadlineNotOffered .leaseNotOffered (by decide) hdeadline hlease
    · exact hbound .deadlineNotOffered .leaseTooLong (by decide) hdeadline hlease
  · obtain hlease | hlease := Conflict.notOffered_or_tooLong_eq_false offer.lease request.lease
    · exact hbound .deadlineTooLong .leaseNotOffered (by decide) hdeadline hlease
    · exact hbound .deadlineTooLong .leaseTooLong (by decide) hdeadline hlease

/-! ## Doubts -/

/-- The policies that can be left open. -/
inductive OpenPolicy
  | reliability
  | durability
  | liveliness
  deriving DecidableEq

namespace Doubt

/-- The policy that a doubt is about. -/
def policy : Doubt → OpenPolicy
  | reliabilityOpen _ _ | reliableRequested _ | bestEffortOffered _ => .reliability
  | durabilityOpen _ _ | transientLocalRequested _ | volatileOffered _ => .durability
  | livelinessOpen _ _ | manualRequested _ | automaticOffered _ => .liveliness

theorem semicolon_notMem_named :
    (∀ p : Reliability, ';' ∉ (named p.name?).toList) ∧
      (∀ p : Durability, ';' ∉ (named p.name?).toList) ∧
      ∀ p : Liveliness, ';' ∉ (named p.name?).toList := by
  refine ⟨?_, ?_, ?_⟩
  all_goals
    intro p
    cases p <;> exact semicolon_notMem_ofList (by decide)

/-- The last piece of an entry is the only one that has a semicolon. -/
theorem pieces_eq_append (d : Doubt) :
    ∃ texts, d.pieces = texts ++ [";"] ∧ ∀ s ∈ texts, ';' ∉ s.toList := by
  obtain ⟨hreliability, hdurability, hliveliness⟩ := semicolon_notMem_named
  refine ⟨d.pieces.dropLast, ?_, ?_⟩
  · cases d <;> rfl
  · cases d <;>
      simp only [pieces, List.dropLast, List.forall_mem_cons, List.not_mem_nil, false_implies,
        implies_true, hreliability, hdurability, hliveliness, not_false_eq_true, true_and,
        and_true]
    case reliabilityOpen | durabilityOpen | livelinessOpen =>
      exact ⟨semicolon_notMem_ofList (by decide), semicolon_notMem_ofList (by decide)⟩
    all_goals exact semicolon_notMem_ofList (by decide)

theorem ended_entry (d : Doubt) : Ended d.entry := by
  obtain ⟨texts, hpieces, htexts⟩ := d.pieces_eq_append
  refine ⟨texts.flatMap String.toList, ?_, ?_⟩
  · simpa using htexts
  · rw [entry, String.toList_join, hpieces, List.flatMap_append]
    rfl

/-- The text with which the entry of a doubt opens. -/
def opening (d : Doubt) : String := d.pieces.headD ""

theorem opening_isPrefix_entry (d : Doubt) : d.opening.toList <+: d.entry.toList := by
  rw [entry, String.toList_join, opening]
  cases d.pieces with
  | nil => exact List.nil_prefix
  | cons first rest => exact List.prefix_append _ _

theorem mark_isPrefix_entry (d : Doubt) : "WARNING: ".toList <+: d.entry.toList := by
  have hopening : "WARNING: ".toList <+: d.opening.toList := by
    cases d <;> exact ofList_isPrefix_ofList_iff.mpr (by decide)
  exact hopening.trans d.opening_isPrefix_entry

/-- An opening tells which policy the doubt is about. -/
theorem policy_eq_of_opening_isPrefix {d d' : Doubt}
    (h : d.opening.toList <+: d'.opening.toList) : d.policy = d'.policy := by
  cases d <;> cases d' <;>
    replace h := ofList_isPrefix_ofList_iff.mp h <;>
    revert h <;>
    simp only [policy] <;>
    decide

theorem policy_eq_of_entry_eq {d d' : Doubt} (h : d.entry = d'.entry) :
    d.policy = d'.policy := by
  have hopening : d.opening.toList <+: d'.entry.toList := h ▸ d.opening_isPrefix_entry
  obtain hle | hge := List.prefix_or_prefix_of_prefix hopening d'.opening_isPrefix_entry
  · exact policy_eq_of_opening_isPrefix hle
  · exact (policy_eq_of_opening_isPrefix hge).symm

theorem policy_ofReliability? {offered requested : Reliability} {d : Doubt}
    (hd : d ∈ ofReliability? offered requested) : d.policy = .reliability := by
  revert hd
  unfold ofReliability?
  split_ifs <;> rintro ⟨⟩ <;> rfl

theorem policy_ofDurability? {offered requested : Durability} {d : Doubt}
    (hd : d ∈ ofDurability? offered requested) : d.policy = .durability := by
  revert hd
  unfold ofDurability?
  split_ifs <;> rintro ⟨⟩ <;> rfl

theorem policy_ofLiveliness? {offered requested : Liveliness} {d : Doubt}
    (hd : d ∈ ofLiveliness? offered requested) : d.policy = .liveliness := by
  revert hd
  unfold ofLiveliness?
  split_ifs <;> rintro ⟨⟩ <;> rfl

end Doubt

/-- No two doubts are about the same policy. -/
theorem doubts_pairwise_policy_ne (offer request : Profile) :
    (doubts offer request).Pairwise fun d d' => d.policy ≠ d'.policy := by
  have hsingle : ∀ d? : Option Doubt, d?.toList.Pairwise fun d d' => d.policy ≠ d'.policy := by
    intro d?
    cases d? <;> simp
  rw [doubts, List.pairwise_append, List.pairwise_append]
  refine ⟨⟨hsingle _, hsingle _, ?_⟩, hsingle _, ?_⟩
  · intro d hd d' hd'
    rw [Doubt.policy_ofReliability? (Option.mem_toList.mp hd),
      Doubt.policy_ofDurability? (Option.mem_toList.mp hd')]
    decide
  · intro d hd d' hd'
    rw [Doubt.policy_ofLiveliness? (Option.mem_toList.mp hd')]
    obtain hreliability | hdurability := List.mem_append.mp hd
    · rw [Doubt.policy_ofReliability? (Option.mem_toList.mp hreliability)]
      decide
    · rw [Doubt.policy_ofDurability? (Option.mem_toList.mp hdurability)]
      decide

theorem length_doubts_le (offer request : Profile) : (doubts offer request).length ≤ 3 := by
  have hsingle : ∀ d? : Option Doubt, d?.toList.length ≤ 1 := by
    intro d?
    cases d? <;> simp
  have hreliability := hsingle (Doubt.ofReliability? offer.reliability request.reliability)
  have hdurability := hsingle (Doubt.ofDurability? offer.durability request.durability)
  have hliveliness := hsingle (Doubt.ofLiveliness? offer.liveliness request.liveliness)
  rw [doubts, List.length_append, List.length_append]
  omega

/-! ## Explanations -/

/-- The entry reports a doubt about the policy. -/
def Concerns (entry : String) (policy : OpenPolicy) : Prop :=
  ∃ d : Doubt, d.entry = entry ∧ d.policy = policy

/-- Each of the entries concerns a policy, and no two concern the same one. -/
structure OnePerPolicy (entries : List String) : Prop where
  concerns : ∀ e ∈ entries, ∃ policy, Concerns e policy
  apart : entries.Pairwise fun e e' => ∀ policy, ¬ (Concerns e policy ∧ Concerns e' policy)

theorem onePerPolicy_doubts (offer request : Profile) :
    OnePerPolicy ((doubts offer request).map Doubt.entry) where
  concerns := by
    intro e he
    obtain ⟨d, -, rfl⟩ := List.mem_map.mp he
    exact ⟨d.policy, d, rfl, rfl⟩
  apart := by
    rw [List.pairwise_map]
    refine (doubts_pairwise_policy_ne offer request).imp ?_
    rintro d d' hne policy ⟨⟨a, ha, hpolicy⟩, b, hb, hpolicy'⟩
    apply hne
    rw [← Doubt.policy_eq_of_entry_eq ha, ← Doubt.policy_eq_of_entry_eq hb, hpolicy, hpolicy']

/-- What the entries of an explanation look like under each verdict. -/
def Verdict.ToldBy (entries : List String) : Verdict → Prop
  | ok => entries = []
  | warning => Marked "WARNING: " 3 entries ∧ OnePerPolicy entries
  | error => Marked "ERROR: " 5 entries

theorem Verdict.ToldBy.unique {entries : List String} {v v' : Verdict}
    (h : v.ToldBy entries) (h' : v'.ToldBy entries) : v = v' := by
  cases v with
  | ok =>
      cases v' with
      | ok => rfl
      | warning => exact absurd h h'.1.nonempty
      | error => exact absurd h h'.nonempty
  | warning =>
      cases v' with
      | ok => exact absurd h' h.1.nonempty
      | warning => rfl
      | error => exact (h'.not_error_and_warning h.1).elim
  | error =>
      cases v' with
      | ok => exact absurd h' h.nonempty
      | warning => exact (h.not_error_and_warning h'.1).elim
      | error => rfl

variable {offer request offer' request' : Profile}

theorem readsAs_entries (offer request : Profile) :
    ReadsAs (checkCompatible offer request).reason (entries offer request) := by
  refine ⟨rfl, ?_⟩
  intro e he
  rw [entries] at he
  split at he
  · obtain ⟨d, -, rfl⟩ := List.mem_map.mp he
    exact d.ended_entry
  · obtain ⟨c, -, rfl⟩ := List.mem_map.mp he
    exact c.ended_entry

theorem verdict_toldBy_entries (offer request : Profile) :
    (verdict offer request).ToldBy (entries offer request) := by
  rw [verdict, entries]
  split_ifs with hconflicts hdoubts
  · rw [List.isEmpty_iff.mp hdoubts]
    rfl
  · refine ⟨⟨?_, ?_, ?_⟩, onePerPolicy_doubts offer request⟩
    · rwa [Ne, List.map_eq_nil_iff, ← List.isEmpty_iff]
    · rw [List.length_map]
      exact length_doubts_le offer request
    · rintro e he
      obtain ⟨d, -, rfl⟩ := List.mem_map.mp he
      exact d.mark_isPrefix_entry
  · refine ⟨?_, ?_, ?_⟩
    · rwa [Ne, List.map_eq_nil_iff, ← List.isEmpty_iff]
    · rw [List.length_map]
      exact length_conflicts_le offer request
    · rintro e he
      obtain ⟨c, -, rfl⟩ := List.mem_map.mp he
      exact c.mark_isPrefix_entry

/-- The verdict is the one that the entries of the explanation tell. -/
theorem verdict_eq_iff_toldBy (offer request : Profile) (v : Verdict) :
    (checkCompatible offer request).verdict = v ↔
      ∃ es, ReadsAs (checkCompatible offer request).reason es ∧ v.ToldBy es := by
  have hreads := readsAs_entries offer request
  constructor
  · rintro rfl
    exact ⟨_, hreads, verdict_toldBy_entries offer request⟩
  · rintro ⟨es, hes, htold⟩
    obtain rfl := hes.unique hreads
    exact (verdict_toldBy_entries offer request).unique htold

/-- No rule looks at other settings than those that can be left to the peers. -/
theorem checkCompatible_congr (hoffer : offer'.choice = offer.choice)
    (hrequest : request'.choice = request.choice) :
    checkCompatible offer' request' = checkCompatible offer request := by
  simp only [Profile.choice, Choice.mk.injEq] at hoffer hrequest
  obtain ⟨hreliability, hdurability, hliveliness, hdeadline, hlease⟩ := hoffer
  obtain ⟨hreliability', hdurability', hliveliness', hdeadline', hlease'⟩ := hrequest
  have hconflicts : conflicts offer' request' = conflicts offer request := by
    rw [conflicts_eq_iff]
    intro c
    cases c <;> simp only [Conflict.arises, *]
  have hdoubts : doubts offer' request' = doubts offer request := by
    simp only [doubts, *]
  simp only [checkCompatible, verdict, entries, hconflicts, hdoubts]

/-- An explanation can be parted into entries in one way only, and what the entries are
tells the verdict.  Verdict and explanation depend on no other settings than those that can
be left to the peers. -/
theorem verdict_told_by_reason (offer request : Profile) :
    let report := checkCompatible offer request
    (∃! es, ReadsAs report.reason es) ∧
      (report.verdict = .ok ↔ report.reason = "") ∧
      (report.verdict = .error ↔
        ∃ es, ReadsAs report.reason es ∧ Marked "ERROR: " 5 es) ∧
      (report.verdict = .warning ↔
        ∃ es, ReadsAs report.reason es ∧ Marked "WARNING: " 3 es ∧ OnePerPolicy es) ∧
      ∀ offer' request' : Profile, offer'.choice = offer.choice →
        request'.choice = request.choice → checkCompatible offer' request' = report := by
  intro report
  have hreads : ReadsAs report.reason (entries offer request) := readsAs_entries offer request
  have hverdict := verdict_eq_iff_toldBy offer request
  refine ⟨⟨_, hreads, fun es hes => hes.unique hreads⟩, ?_, hverdict .error,
    hverdict .warning, fun _ _ => checkCompatible_congr⟩
  rw [hverdict .ok]
  constructor
  · rintro ⟨es, hes, rfl⟩
    exact hes.eq_join
  · intro hempty
    exact ⟨[], ⟨hempty, by simp⟩, rfl⟩

end DiscoveryGraph
