import DiscoveryGraph.Proofs.Snapshot.Truncation

/-!
# Room that is reserved while reading

A decoder that believes every announced count reads the same messages, because elements
that are all there fit into the rest of the body.  What the early check achieves is that
room is reserved only for elements that the unread bytes could hold: for nodes of 24 bytes
where the number of nodes was read, and behind that for gids of 16 bytes.

Whether some room is reserved shows where it is withheld: decoding then fails for want of
memory.  Room that is not asked for is not missed.
-/

namespace DiscoveryGraph

namespace Cdr

/-- Room for a list of elements, asked for when `unread` bytes are left. -/
structure Reservation where
  element : Element
  count : Nat
  unread : Nat
  deriving DecidableEq

/-- Checks announced counts, and has all room but that of one reservation. -/
def LengthPolicy.withholding (x : Reservation) : LengthPolicy where
  believes := bounded.believes
  grants element count unread := decide (Reservation.mk element count unread ≠ x)

namespace Read

variable {value other : Type} {x : Reservation} {element : Element} {size : Nat}
  {r mid next : Reader} {lacks : Prop}

/-- A count is a word behind its padding, and the rest of the body bears it out. -/
theorem remaining_of_count {n : Nat}
    (hrun : (count .bounded size).runFrom r = (.ok n, mid)) :
    n * size ≤ mid.remaining ∧
      r.remaining = Writer.padding r.offset Word.size + Word.size + mid.remaining := by
  obtain ⟨⟨-, htakes⟩, hbelieves⟩ := runFrom_count_eq_ok_iff.mp hrun
  refine ⟨of_decide_eq_true hbelieves, ?_⟩
  rw [htakes.remaining_eq, Layout.length_slots_word]

/-! ## Room that is not missed -/

/-- At `r` the first action comes to the same as the second one, or it runs out of memory
because of what it lacks. -/
def SameUnless (lacks : Prop) (r : Reader) (scarce ample : Read value) : Prop :=
  scarce.runFrom r = ample.runFrom r ∨ (scarce.runFrom r).1 = .error .badAlloc ∧ lacks

theorem SameUnless.refl (read : Read value) : SameUnless lacks r read read := .inl rfl

theorem SameUnless.mono {more : Prop} {scarce ample : Read value}
    (h : SameUnless lacks r scarce ample) (himp : lacks → more) :
    SameUnless more r scarce ample :=
  h.imp_right (And.imp_right himp)

theorem SameUnless.bind {scarce ample : Read value} {more more' : value → Read other}
    (h : SameUnless lacks r scarce ample)
    (hmore : ∀ v mid, ample.runFrom r = (.ok v, mid) →
      SameUnless lacks mid (more v) (more' v)) :
    SameUnless lacks r (scarce >>= more) (ample >>= more') := by
  rw [SameUnless, Action.runFrom_bind, Action.runFrom_bind]
  rcases h with hsame | ⟨hlacking, hlacks⟩
  · rw [hsame]
    rcases hrun : ample.runFrom r with ⟨e | v, mid⟩
    · exact .inl rfl
    · exact hmore v mid hrun
  · rcases hrun : scarce.runFrom r with ⟨e | v, mid⟩
    · rw [hrun] at hlacking
      obtain rfl := Except.error.inj hlacking
      exact .inr ⟨rfl, hlacks⟩
    · rw [hrun] at hlacking
      cases hlacking

theorem sameUnless_reserve (n : Nat) (r : Reader) :
    SameUnless (⟨element, n, r.remaining⟩ = x) r (reserve (.withholding x) element n)
      (reserve .bounded element n) := by
  by_cases hx : Reservation.mk element n r.remaining = x
  · refine .inr ⟨?_, hx⟩
    simp [reserve, LengthPolicy.withholding, hx]
  · refine .inl ?_
    simp [reserve, LengthPolicy.withholding, LengthPolicy.bounded, Except.map, hx]

/-- Room for a list is missed if it is the room withheld, or if an element misses it. -/
theorem sameUnless_sequence {scarce ample : Read value}
    (h : ∀ n mid, (count .bounded size).runFrom r = (.ok n, mid) →
      (⟨element, n, mid.remaining⟩ = x → lacks) ∧
        SameUnless lacks mid (times scarce n) (times ample n)) :
    SameUnless lacks r (sequence (.withholding x) element size scarce)
      (sequence .bounded element size ample) := by
  have hcount : SameUnless lacks r (count (.withholding x) size) (count .bounded size) :=
    .refl _
  refine hcount.bind fun n mid hrun => ?_
  obtain ⟨hlist, helements⟩ := h n mid hrun
  refine ((sameUnless_reserve n mid).mono hlist).bind fun _ stop hstop => ?_
  rw [(runFrom_reserve_eq_ok_iff.mp hstop).2]
  exact helements

theorem Forward.remaining_le {start : Nat} {read : Read value} {v : value}
    (h : Forward start read) (hstart : start ≤ r.offset)
    (hrun : read.runFrom r = (.ok v, mid)) : mid.remaining ≤ r.remaining := by
  have hmid := (h r hstart).reaches
  rw [hrun] at hmid
  exact hmid.remaining_le

/-- Elements that lack only what lies ahead of them lack what lies ahead of the first. -/
theorem sameUnless_times {lacks : Nat → Prop} {scarce ample : Read value}
    (hmono : ∀ {near far : Nat}, near ≤ far → lacks near → lacks far)
    (hforward : Forward 0 ample)
    (h : ∀ r : Reader, SameUnless (lacks r.remaining) r scarce ample) (n : Nat) (r : Reader) :
    SameUnless (lacks r.remaining) r (times scarce n) (times ample n) := by
  induction n generalizing r with
  | zero => exact .refl _
  | succ n ih =>
      refine (h r).bind fun _ mid hrun => ?_
      have hmid := hforward.remaining_le (Nat.zero_le _) hrun
      exact ((ih mid).mono (hmono hmid)).bind fun _ _ _ => .refl _

/-! ## Room that is missed -/

/-- At `r` the action runs out of memory. -/
def Misses (r : Reader) (scarce : Read value) : Prop :=
  (scarce.runFrom r).1 = .error .badAlloc

theorem Misses.bind {scarce : Read value} (h : Misses r scarce) (more : value → Read other) :
    Misses r (scarce >>= more) := by
  rw [Misses, Action.runFrom_bind]
  rcases hrun : scarce.runFrom r with ⟨e | v, mid⟩
  · rw [Misses, hrun] at h
    obtain rfl := Except.error.inj h
    rfl
  · rw [Misses, hrun] at h
    cases h

/-- What runs out of memory later on does so at the latest there. -/
theorem SameUnless.misses_bind {scarce ample : Read value} {v : value}
    (h : SameUnless lacks r scarce ample) (hrun : ample.runFrom r = (.ok v, mid))
    {more : value → Read other} (hmore : Misses mid (more v)) : Misses r (scarce >>= more) := by
  rcases h with hsame | ⟨hlacking, -⟩
  · rw [Misses, Action.runFrom_bind, hsame, hrun]
    exact hmore
  · exact Misses.bind hlacking more

/-- A list that is read needs the room for its elements as soon as they are counted. -/
theorem exists_misses_sequence {steps : value → List WriteStep} {ample : Read value}
    (hread : Parses ample steps) {xs : List value}
    (hrun : (sequence .bounded element size ample).runFrom r = (.ok xs, next)) :
    ∃ mid, (count .bounded size).runFrom r = (.ok xs.length, mid) ∧
      ∀ scarce : Read value,
        Misses r (sequence (.withholding ⟨element, xs.length, mid.remaining⟩) element size
          scarce) := by
  simp only [sequence, Action.runFrom_bind_eq_ok_iff, runFrom_times_eq_ok_iff hread] at hrun
  obtain ⟨n, mid, hcount, -, -, -, rfl, -⟩ := hrun
  refine ⟨mid, hcount, fun scarce => ?_⟩
  have hsame : SameUnless False r
      (count (.withholding ⟨element, xs.length, mid.remaining⟩) size) (count .bounded size) :=
    .refl _
  refine hsame.misses_bind hcount (Misses.bind ?_ _)
  simp [Misses, reserve, LengthPolicy.withholding]

/-- If an element misses room, so does a list that has it. -/
theorem exists_misses_times {scarce : Nat → Read value} {ample : Read value}
    (hsame : ∀ unread r, SameUnless True r (scarce unread) ample) {v : value}
    (hmisses : ∀ r next, ample.runFrom r = (.ok v, next) → ∃ unread, Misses r (scarce unread))
    {n : Nat} {xs : List value} (hrun : (times ample n).runFrom r = (.ok xs, next))
    (hv : v ∈ xs) : ∃ unread, Misses r (times (scarce unread) n) := by
  induction n generalizing r xs next with
  | zero =>
      rw [times, Action.runFrom_pure, Prod.mk.injEq, Except.ok.injEq] at hrun
      rw [← hrun.1] at hv
      contradiction
  | succ n ih =>
      simp only [times, Action.runFrom_bind_eq_ok_iff, Action.runFrom_pure, Prod.mk.injEq,
        Except.ok.injEq] at hrun
      obtain ⟨first, mid, hfirst, rest, stop, hrest, rfl, -⟩ := hrun
      rcases List.mem_cons.mp hv with rfl | hv
      · obtain ⟨unread, hunread⟩ := hmisses r mid hfirst
        exact ⟨unread, hunread.bind _⟩
      · obtain ⟨unread, hunread⟩ := ih hrest hv
        exact ⟨unread, (hsame unread r).misses_bind hfirst (hunread.bind _)⟩

theorem exists_misses_elements {y : Nat → Reservation} {scarce : Nat → Read value}
    {ample : Read value} (hsame : ∀ unread r, SameUnless True r (scarce unread) ample) {v : value}
    (hmisses : ∀ r next, ample.runFrom r = (.ok v, next) → ∃ unread, Misses r (scarce unread))
    {xs : List value}
    (hrun : (sequence .bounded element size ample).runFrom r = (.ok xs, next)) (hv : v ∈ xs) :
    ∃ unread, Misses r (sequence (.withholding (y unread)) element size (scarce unread)) := by
  simp only [sequence, Action.runFrom_bind_eq_ok_iff] at hrun
  obtain ⟨n, mid, hcount, _, stop, hreserve, htimes⟩ := hrun
  obtain ⟨unread, hunread⟩ := exists_misses_times hsame hmisses htimes hv
  have hsameCount : SameUnless True r (count (.withholding (y unread)) size)
      (count .bounded size) := .refl _
  have hsameReserve : SameUnless (⟨element, n, mid.remaining⟩ = y unread) mid
      (reserve (.withholding (y unread)) element n) (reserve .bounded element n) :=
    sameUnless_reserve n mid
  exact ⟨unread, hsameCount.misses_bind hcount (hsameReserve.misses_bind hreserve hunread)⟩

end Read

end Cdr

open Cdr

/-! ## Lists of nodes and lists of gids -/

variable {x : Reservation} {r mid : Reader}

/-- Room for nodes, asked for with `ahead` bytes left, which could hold them. -/
structure Cdr.Reservation.OfNodes (x : Reservation) (ahead : Nat) : Prop where
  element_eq : x.element = .node
  fits : x.count * leastNodeSize ≤ x.unread
  unread_eq : x.unread = ahead

/-- Room for gids, asked for further on than with `ahead` bytes left, and the bytes that are
left could hold them. -/
structure Cdr.Reservation.OfGids (x : Reservation) (ahead : Nat) : Prop where
  element_eq : x.element = .gid
  fits : x.count * gidSize ≤ x.unread
  unread_lt : x.unread < ahead

theorem Cdr.Reservation.OfGids.mono {near far : Nat} (hle : near ≤ far) (h : x.OfGids near) :
    x.OfGids far :=
  { h with unread_lt := Nat.lt_of_lt_of_le h.unread_lt hle }

theorem sameUnless_readGids (r : Reader) :
    Read.SameUnless (x.OfGids r.remaining) r (readGids (.withholding x))
      (readGids .bounded) := by
  refine Read.sameUnless_sequence fun n mid hrun => ⟨?_, .refl _⟩
  rintro rfl
  obtain ⟨hfits, hremaining⟩ := Read.remaining_of_count hrun
  have hword : Word.size = 4 := rfl
  exact ⟨rfl, hfits, show mid.remaining < r.remaining by omega⟩

theorem Node.sameUnless_read (r : Reader) :
    Read.SameUnless (x.OfGids r.remaining) r (Node.read (.withholding x))
      (Node.read .bounded) := by
  have htext (r : Reader) : Read.SameUnless (x.OfGids r.remaining) r
      (Read.text (.withholding x)) (Read.text .bounded) := .refl _
  have hahead {value : Type} {read : Read value} (hread : Read.Forward 0 read) {r mid : Reader}
      {v : value} (hrun : read.runFrom r = (.ok v, mid)) :
      x.OfGids mid.remaining → x.OfGids r.remaining :=
    .mono (hread.remaining_le (Nat.zero_le _) hrun)
  refine (htext r).bind fun _ r₁ h₁ => .mono ?_ (hahead Read.forward_text h₁)
  refine (htext r₁).bind fun _ r₂ h₂ => .mono ?_ (hahead Read.forward_text h₂)
  refine (sameUnless_readGids r₂).bind fun _ r₃ h₃ => .mono ?_ (hahead forward_readGids h₃)
  exact (sameUnless_readGids r₃).bind fun _ _ _ => .refl _

/-- In front of the nodes stand a gid and their number, which is a word. -/
theorem remaining_of_readGid {body : List UInt8} {gid : Gid}
    (hrun : readGid.runFrom (.ofBody body) = (.ok gid, mid)) {n : Nat} {next : Reader}
    (hcount : (Read.count .bounded leastNodeSize).runFrom mid = (.ok n, next)) :
    body.length = 20 + next.remaining := by
  obtain ⟨-, htakes⟩ := (parses_readGid _ gid mid).mp hrun
  obtain ⟨-, hremaining⟩ := Read.remaining_of_count hcount
  have hbody : body.length = gidSize + mid.remaining := by
    rw [← length_layout_gid gid 0]
    exact htakes.remaining_eq
  have hoffset : mid.offset = gidSize := by
    rw [← length_layout_gid gid 0, ← Nat.zero_add (List.length _)]
    exact htakes.offset_eq
  have hpadding : Writer.padding gidSize Word.size = 0 := rfl
  rw [hremaining, hoffset, hpadding, Nat.zero_add, ← Nat.add_assoc] at hbody
  exact hbody

/-- The room is for the nodes, where their number has been read, or for gids behind that. -/
def Cdr.Reservation.OfSnapshot (x : Reservation) (body : List UInt8) : Prop :=
  ∃ ahead, body.length = 20 + ahead ∧ (x.OfNodes ahead ∨ x.OfGids ahead)

theorem Snapshot.sameUnless_read (body : List UInt8) :
    Read.SameUnless (x.OfSnapshot body) (.ofBody body) (Snapshot.read (.withholding x))
      (Snapshot.read .bounded) := by
  have hgid : Read.SameUnless (x.OfSnapshot body) (.ofBody body) readGid readGid := .refl _
  refine hgid.bind fun _ mid hmid => ?_
  refine (Read.sameUnless_sequence fun n next hcount => ?_).bind fun _ _ _ => .refl _
  have hahead : body.length = 20 + next.remaining := remaining_of_readGid hmid hcount
  constructor
  · rintro rfl
    exact ⟨_, hahead, .inl ⟨rfl, (Read.remaining_of_count hcount).1, rfl⟩⟩
  · have hnodes : Read.SameUnless (x.OfGids next.remaining) next
        (Read.times (Node.read (.withholding x)) n) (Read.times (Node.read .bounded) n) :=
      Read.sameUnless_times .mono Node.forward_read Node.sameUnless_read n next
    exact hnodes.mono fun hgids => ⟨_, hahead, .inr hgids⟩

/-! ## Messages that are read -/

theorem exists_misses_readGids {next : Reader} {gids : List Gid}
    (hrun : (readGids .bounded).runFrom r = (.ok gids, next)) :
    ∃ unread, Read.Misses r (readGids (.withholding ⟨.gid, gids.length, unread⟩)) := by
  obtain ⟨mid, -, hmisses⟩ := Read.exists_misses_sequence parses_readGid hrun
  exact ⟨mid.remaining, hmisses readGid⟩

theorem Node.exists_misses_read {next : Reader} {n : Node}
    (hrun : (Node.read .bounded).runFrom r = (.ok n, next)) (kind : EndpointKind) :
    ∃ unread, Read.Misses r
      (Node.read (.withholding ⟨.gid, (n.endpoints kind).length, unread⟩)) := by
  simp only [Node.read, Action.runFrom_bind_eq_ok_iff, Action.runFrom_pure, Prod.mk.injEq,
    Except.ok.injEq] at hrun
  obtain ⟨ns, r₁, hns, name, r₂, hname, readers, r₃, hreaders, writers, r₄, hwriters, rfl, -⟩ :=
    hrun
  have htext (x : Reservation) (r : Reader) :
      Read.SameUnless True r (Read.text (.withholding x)) (Read.text .bounded) := .refl _
  cases kind with
  | subscription =>
      obtain ⟨unread, hunread⟩ := exists_misses_readGids hreaders
      exact ⟨unread, (htext _ r).misses_bind hns
        ((htext _ r₁).misses_bind hname (hunread.bind _))⟩
  | publisher =>
      obtain ⟨unread, hunread⟩ := exists_misses_readGids hwriters
      exact ⟨unread, (htext _ r).misses_bind hns ((htext _ r₁).misses_bind hname
        ((sameUnless_readGids r₂).misses_bind hreaders (hunread.bind _)))⟩

namespace Snapshot

variable {data : List UInt8} {s : Snapshot}

/-- Decoding asks for this room: without it, memory does not suffice. -/
def Reserves (data : List UInt8) (x : Reservation) : Prop :=
  decodeWith (.withholding x) data = .error .badAlloc

instance (data : List UInt8) (x : Reservation) : Decidable (Reserves data x) :=
  inferInstanceAs (Decidable (_ = _))

/-- Room that is withheld is not missed, or it is room for elements that are announced by a
count that the rest of the body bears out. -/
theorem decodeWith_withholding (data : List UInt8) (x : Reservation) :
    decodeWith (.withholding x) data = decode data ∨
      decodeWith (.withholding x) data = .error .badAlloc ∧
        ∃ rest, body data = .ok rest ∧ x.OfSnapshot rest := by
  cases hbody : body data with
  | error e =>
      left
      rw [decode, decodeWith_of_body_eq_error hbody, decodeWith_of_body_eq_error hbody]
  | ok rest =>
      rw [decode, decodeWith_of_body_eq_ok hbody, decodeWith_of_body_eq_ok hbody]
      refine (Snapshot.sameUnless_read rest).imp (congrArg Prod.fst) (And.imp_right fun hx => ?_)
      exact ⟨rest, rfl, hx⟩

theorem ofSnapshot_of_reserves (h : Reserves data x) :
    ∃ rest, body data = .ok rest ∧ x.OfSnapshot rest := by
  rcases decodeWith_withholding data x with hsame | ⟨-, hx⟩
  · obtain ⟨offset, fault, he, -⟩ := eq_serialization_of_decode (hsame.symm.trans h)
    cases he
  · exact hx

/-- A message that is read needs room for its nodes and for the gids of each of them. -/
theorem reserves_of_decode (h : decode data = .ok s) :
    Reserves data ⟨.node, s.nodes.length, data.length - 24⟩ ∧
      ∀ n ∈ s.nodes, ∀ kind, ∃ unread, Reserves data ⟨.gid, (n.endpoints kind).length, unread⟩ := by
  obtain ⟨rest, next, hbody, hread⟩ := decodeWith_eq_ok_iff_read.mp h
  have hmisses {x : Reservation}
      (hx : Read.Misses (.ofBody rest) (Snapshot.read (.withholding x))) : Reserves data x :=
    (decodeWith_of_body_eq_ok hbody).trans hx
  simp only [Snapshot.read, Action.runFrom_bind_eq_ok_iff, Action.runFrom_pure, Prod.mk.injEq,
    Except.ok.injEq] at hread
  obtain ⟨participant, r, hgid, nodes, stop, hnodes, rfl, -⟩ := hread
  have hsame : Read.SameUnless True (.ofBody rest) readGid readGid := .refl _
  constructor
  · obtain ⟨mid, hcount, hroom⟩ :=
      Read.exists_misses_sequence (Node.parses_read LengthPolicy.bounded_admits) hnodes
    have hlength := length_of_body_eq_ok hbody
    have hheader : encapsulation.length = 4 := rfl
    have hbefore := remaining_of_readGid hgid hcount
    have hahead : data.length - 24 = mid.remaining := by omega
    rw [hahead]
    exact hmisses (hsame.misses_bind hgid ((hroom _).bind _))
  · intro n hn kind
    obtain ⟨unread, hunread⟩ := Read.exists_misses_elements
      (fun _ r => (Node.sameUnless_read r).mono fun _ => trivial)
      (fun _ _ hrun => Node.exists_misses_read hrun kind) hnodes hn
    exact ⟨unread, hmisses (hsame.misses_bind hgid (hunread.bind _))⟩

/-- The early check of counts changes no message that is read.  All room that is reserved is
for nodes or gids that the unread bytes can hold, at 24 bytes for a node and 16 for a gid: for
the nodes once their number is read, which is 24 bytes into the message, and for gids only
behind that.  A message that is read needs room for its nodes and for the gids of each of
them; room that is not reserved may be missing. -/
theorem decode_eq_ok_iff_unchecked (data : List UInt8) :
    (∀ s, decode data = .ok s ↔ decodeWith .unchecked data = .ok s) ∧
      (∀ x, Reserves data x →
        x.element = .node ∧ x.count * 24 ≤ x.unread ∧ x.unread + 24 = data.length ∨
          x.element = .gid ∧ x.count * 16 ≤ x.unread ∧ x.unread + 24 < data.length) ∧
      (∀ s, decode data = .ok s →
        Reserves data ⟨.node, s.nodes.length, data.length - 24⟩ ∧
          ∀ n ∈ s.nodes, ∀ kind, ∃ unread,
            Reserves data ⟨.gid, (n.endpoints kind).length, unread⟩) ∧
      ∀ x, ¬Reserves data x → decodeWith (.withholding x) data = decode data := by
  refine ⟨fun s => ?_, fun x hreserves => ?_, fun s => reserves_of_decode, fun x hreserves => ?_⟩
  · rw [decode, decodeWith_eq_ok_iff LengthPolicy.bounded_admits,
      decodeWith_eq_ok_iff LengthPolicy.unchecked_admits]
  · obtain ⟨rest, hbody, ahead, hahead, hx⟩ := ofSnapshot_of_reserves hreserves
    have hheader : encapsulation.length = 4 := rfl
    have hlength : data.length = ahead + 24 := by
      rw [length_of_body_eq_ok hbody]
      omega
    rw [hlength]
    rcases hx with ⟨helement, hfits, hunread⟩ | ⟨helement, hfits, hunread⟩
    · exact .inl ⟨helement, hfits, congrArg (· + 24) hunread⟩
    · exact .inr ⟨helement, hfits, Nat.add_lt_add_right hunread 24⟩
  · rcases decodeWith_withholding data x with hsame | ⟨hlacking, -⟩
    · exact hsame
    · exact (hreserves hlacking).elim

/-- Room is reserved for two nodes, and in the first of them for two readers.  No room is
reserved for a third node. -/
theorem twinsMessage_reserves :
    decode twinsMessage = .ok twins ∧ twinsMessage.length = 112 + 24 ∧
      (Reserves twinsMessage ⟨.node, 2, 112⟩ ∧ 2 * 24 ≤ 112) ∧
      (Reserves twinsMessage ⟨.gid, 2, 92⟩ ∧ 2 * 16 ≤ 92) ∧
      ¬Reserves twinsMessage ⟨.node, 3, 112⟩ ∧
      decodeWith (.withholding ⟨.node, 3, 112⟩) twinsMessage = .ok twins := by
  have hdecode : decode twinsMessage = .ok twins := by decide +kernel
  have hlength : twinsMessage.length = 112 + 24 := by decide +kernel
  have hgids : Reserves twinsMessage ⟨.gid, 2, 92⟩ := by decide +kernel
  have hmore : ¬Reserves twinsMessage ⟨.node, 3, 112⟩ := by decide +kernel
  obtain ⟨-, hfits, hneeds, hspared⟩ := decode_eq_ok_iff_unchecked twinsMessage
  obtain ⟨hnodes, -⟩ := hneeds twins hdecode
  rw [hlength] at hnodes
  have hnodesFit := (hfits _ hnodes).resolve_right fun hgid => nomatch hgid.1
  have hgidsFit := (hfits _ hgids).resolve_left fun hnode => nomatch hnode.1
  exact ⟨hdecode, hlength, ⟨hnodes, hnodesFit.2.1⟩, ⟨hgids, hgidsFit.2.1⟩, hmore,
    (hspared _ hmore).trans hdecode⟩

end Snapshot

end DiscoveryGraph
