import DiscoveryGraph.Proofs.Qos.Settling

/-!
# Looking up the peers on a topic

Peers are looked up only for a profile that leaves some setting open.  Any other profile
is what every list of peers would have made of it, so nothing is lost where the lookup is
left out, and nowhere else could it be left out.  A lookup is made once, on the given topic
and for the opposite kind; where it fails the profile is kept and the error is handed on.
-/

namespace DiscoveryGraph.Profile

/-! ## Profiles that no peers change -/

section Unchanged

variable {q : Profile}

theorem hasBestAvailable_eq_false_iff :
    q.hasBestAvailable = false ↔
      q.reliability ≠ .bestAvailable ∧ q.durability ≠ .bestAvailable ∧
        q.liveliness ≠ .bestAvailable ∧ q.deadline ≠ .bestAvailable ∧
        q.lease ≠ .bestAvailable := by
  simp [hasBestAvailable, and_assoc]

theorem fill_eq_self (hq : q.hasBestAvailable = false) (c : Choice) : q.fill c = q := by
  obtain ⟨hreliability, hdurability, hliveliness, hdeadline, hlease⟩ :=
    hasBestAvailable_eq_false_iff.mp hq
  simp [fill, hreliability, hdurability, hliveliness, hdeadline, hlease]

/-- A profile leaves nothing open exactly if no peers change it.  Having no peers at all is
enough to tell, since then everything open is settled. -/
theorem hasBestAvailable_eq_false_iff_resolve_eq (kind : EndpointKind) :
    q.hasBestAvailable = false ↔ ∀ peers, q.resolve kind peers = q := by
  constructor
  · intro hq peers
    exact fill_eq_self hq _
  · intro hkept
    have hsettled : q.SettledFrom (q.resolve kind []) [] :=
      settledFrom_fill (Choice.settlesFrom_forKind kind []) q
    rw [hkept []] at hsettled
    exact hsettled.hasBestAvailable (by simp) (by simp)

end Unchanged

/-! ## Lookups -/

/-- A question for the endpoints of one kind on a topic. -/
structure Lookup (node : Type) where
  asker : node
  topic : String
  kind : EndpointKind

section Lookups

variable {m : Type → Type} [Monad m] {node : Type}

/-- A lookup that writes down what it was asked, and is otherwise the given one. -/
def noted (fetch : node → String → EndpointKind → m (Except Error (List EndpointInfo)))
    (n : node) (topic : String) (kind : EndpointKind) :
    StateT (List (Lookup node)) m (Except Error (List EndpointInfo)) := do
  modify (· ++ [⟨n, topic, kind⟩])
  fetch n topic kind

/-- What the answer to a lookup makes of a profile. -/
def afterLookup (kind : EndpointKind) (q : Profile) :
    Except Error (List EndpointInfo) → Except Error Unit × Profile
  | .ok peers => (.ok (), q.resolve kind peers)
  | .error e => (.error e, q)

variable (fetch : node → String → EndpointKind → m (Except Error (List EndpointInfo)))

theorem resolveOnTopic_of_settled {q : Profile} (hq : q.hasBestAvailable = false)
    (kind : EndpointKind) (n : node) (topic : String) :
    q.resolveOnTopic kind fetch n topic = pure (.ok (), q) := by
  simp [resolveOnTopic, hq]

variable [LawfulMonad m]

theorem resolveOnTopic_of_open {q : Profile} (hq : q.hasBestAvailable = true)
    (kind : EndpointKind) (n : node) (topic : String) :
    q.resolveOnTopic kind fetch n topic =
      q.afterLookup kind <$> fetch n topic kind.opposite := by
  rw [resolveOnTopic, if_pos hq, map_eq_pure_bind]
  congr 1
  funext answer
  cases answer with
  | ok peers => rfl
  | error e => rfl

theorem run_noted (n : node) (topic : String) (kind : EndpointKind)
    (lookups : List (Lookup node)) :
    (noted fetch n topic kind).run lookups =
      (·, lookups ++ [⟨n, topic, kind⟩]) <$> fetch n topic kind := by
  simp [noted]

/-- A profile on a topic is kept without a lookup exactly where no peers would change it.
Otherwise there is one lookup, for the opposite kind on that topic; its error is returned
with the profile kept, and its peers resolve the profile. -/
theorem resolveOnTopic_looks_up_where_open (kind : EndpointKind) (n : node) (topic : String)
    (q : Profile) (lookups : List (Lookup node)) :
    let outcome := (q.resolveOnTopic kind (noted fetch) n topic).run lookups
    Prod.fst <$> outcome = q.resolveOnTopic kind fetch n topic ∧
      (q.hasBestAvailable = false ↔ ∀ peers, q.resolve kind peers = q) ∧
      (q.hasBestAvailable = false → outcome = pure ((.ok (), q), lookups)) ∧
      (q.hasBestAvailable = true →
        outcome =
          (fun answer => (q.afterLookup kind answer, lookups ++ [⟨n, topic, kind.opposite⟩])) <$>
            fetch n topic kind.opposite) := by
  intro outcome
  have hsettled (hq : q.hasBestAvailable = false) :
      outcome = pure ((.ok (), q), lookups) := by
    simp only [outcome, resolveOnTopic_of_settled _ hq, StateT.run_pure]
  have hopen (hq : q.hasBestAvailable = true) :
      outcome =
        (fun answer => (q.afterLookup kind answer, lookups ++ [⟨n, topic, kind.opposite⟩])) <$>
          fetch n topic kind.opposite := by
    simp only [outcome, resolveOnTopic_of_open _ hq, StateT.run_map, run_noted,
      Functor.map_map]
  refine ⟨?_, hasBestAvailable_eq_false_iff_resolve_eq kind, hsettled, hopen⟩
  cases hq : q.hasBestAvailable with
  | false => rw [hsettled hq, resolveOnTopic_of_settled _ hq, map_pure]
  | true => rw [hopen hq, resolveOnTopic_of_open _ hq, Functor.map_map]

end Lookups

/-- A lookup that fails and counts how often it was made. -/
def brokenLookup (_ : Unit) (_ : String) (_ : EndpointKind) :
    StateM Nat (Except Error (List EndpointInfo)) := do
  modify (· + 1)
  return .error .badAlloc

theorem resolveOnTopic_brokenLookup :
    ((standard.resolveOnTopic .publisher (noted brokenLookup) () "chatter").run []).run 7 =
        (((.ok (), standard), []), 7) ∧
      ((bestAvailable.resolveOnTopic .publisher (noted brokenLookup) () "chatter").run []).run 7 =
        (((.error .badAlloc, bestAvailable), [⟨(), "chatter", .subscription⟩]), 8) := by
  obtain ⟨-, -, hkept, -⟩ :=
    resolveOnTopic_looks_up_where_open brokenLookup .publisher () "chatter" standard []
  obtain ⟨-, -, -, hasked⟩ :=
    resolveOnTopic_looks_up_where_open brokenLookup .publisher () "chatter" bestAvailable []
  rw [hkept (by decide), hasked (by decide)]
  exact ⟨rfl, rfl⟩

end DiscoveryGraph.Profile
