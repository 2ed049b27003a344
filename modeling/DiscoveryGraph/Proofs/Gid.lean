import DiscoveryGraph.Graph.Report
import DiscoveryGraph.Proofs.Text.Hex

/-!
# Texts that tell gids apart

The text of a gid has no fixed width, since bytes are written without leading zeros.  It is
cut at its dots, which are no digits, and what stands between two dots is the numeral of one
byte.  So a gid is known from its text, and also from the longer texts that name it: its
label, the error about an unknown participant and the lines of a report.
-/

namespace DiscoveryGraph

namespace Gid

theorem toList_text (g : Gid) :
    g.text.toList = List.intercalate ['.'] (g.bytes.map Hex.short) := by
  rw [text, String.toList_ofList]

theorem dot_notMem_short (b : UInt8) : '.' ∉ Hex.short b :=
  Hex.not_mem_short (fun _ => Nat.digitChar_ne '.' rfl) b

/-- Between the dots of the text stand the bytes. -/
theorem splitOn_text (g : Gid) : g.text.toList.splitOn '.' = g.bytes.map Hex.short := by
  have hdots : ∀ piece ∈ g.bytes.map Hex.short, '.' ∉ piece :=
    List.forall_mem_map.mpr fun b _ => dot_notMem_short b
  have hne : g.bytes.map Hex.short ≠ [] := by
    rw [Ne, List.map_eq_nil_iff, ← List.length_eq_zero_iff, g.length_bytes]
    decide
  rw [toList_text, List.splitOn_intercalate '.' hdots hne]

theorem text_injective {a b : Gid} (h : a.text = b.text) : a = b := by
  have hbytes : a.bytes.map Hex.short = b.bytes.map Hex.short := by
    rw [← splitOn_text, ← splitOn_text, h]
  exact ext_bytes ((List.map_inj_right fun _ _ => Hex.short_injective).mp hbytes)

/-- A text of a gid has only dots and digits. -/
theorem notMem_text {c : Char} (hdot : c ≠ '.') (hdigit : ∀ n, Nat.digitChar n ≠ c) (g : Gid) :
    c ∉ g.text.toList := by
  have hbytes : ∀ bytes : List UInt8, c ∉ List.intercalate ['.'] (bytes.map Hex.short) := by
    intro bytes
    induction bytes with
    | nil => simp
    | cons b bytes ih =>
        have hb : c ∉ Hex.short b := Hex.not_mem_short hdigit b
        cases bytes with
        | nil => simpa using hb
        | cons b' bytes =>
            rw [List.map_cons] at ih ⊢
            simp [List.intercalate_cons_cons, hb, hdot, ih]
  rw [toList_text]
  exact hbytes g.bytes

theorem quote_notMem_text (g : Gid) : '\'' ∉ g.text.toList :=
  g.notMem_text (by decide) fun _ => Nat.digitChar_ne '\'' rfl

end Gid

/-! ## Texts that name a gid -/

variable {a b : Gid}

/-- The line of an entity has the text of its gid between two quotes. -/
theorem Entity.toList_reportLine (gid : Gid) (e : Entity) :
    ∃ rest, (e.reportLine gid).toList =
      "    gid: '".toList ++ (gid.text.toList ++ '\'' :: rest) := by
  have hquote : "', topic name: '".toList = '\'' :: ", topic name: '".toList := rfl
  refine ⟨", topic name: '".toList ++
    (e.topic.toList ++ ("', topic_type: '".toList ++ (e.topicType.toList ++ "'".toList))), ?_⟩
  simp only [reportLine, String.toList_append, hquote, List.append_assoc, List.cons_append]

theorem Entity.gid_eq_of_reportLine {d e : Entity} (h : d.reportLine a = e.reportLine b) :
    a = b := by
  obtain ⟨rest, hd⟩ := d.toList_reportLine a
  obtain ⟨rest', he⟩ := e.toList_reportLine b
  rw [h, he] at hd
  have hpieces := congrArg (List.splitOn '\'') (List.append_cancel_left hd)
  rw [List.splitOn_append_cons_self_of_not_mem a.quote_notMem_text,
    List.splitOn_append_cons_self_of_not_mem b.quote_notMem_text] at hpieces
  exact (Gid.text_injective (String.toList_inj.mp (List.cons.inj hpieces).1)).symm

theorem Participant.gid_eq_of_reportLines {p q : Participant}
    (h : p.reportLines a = q.reportLines b) : a = b := by
  have hline := (List.cons.inj h).1
  rw [String.append_left_inj, String.append_right_inj] at hline
  exact Gid.text_injective hline

theorem gids_eq_of_endpointLines {title : String} {gids others : List Gid}
    (h : endpointLines title gids = endpointLines title others) : gids = others := by
  refine (List.map_inj_right fun a b hline => ?_).mp (List.cons.inj h).2
  exact Gid.text_injective ((String.append_right_inj _).mp hline)

/-- The text of a gid is the numerals of its bytes to base sixteen, without leading zeros and
joined by dots, and no other gid has it.  So different gids are labelled differently, errors
name them differently, and so do the lines of a report, whatever else these say. -/
theorem Gid.text_tells_apart (a b : Gid) :
    a.text = String.ofList (List.intercalate ['.']
        (a.bytes.map fun byte => Nat.toDigits 16 byte.toNat)) ∧
      (a.text = b.text → a = b) ∧
      (a.labelled = b.labelled → a = b) ∧
      ((Error.participantNotFound a).message = (Error.participantNotFound b).message → a = b) ∧
      (∀ d e : Entity, d.reportLine a = e.reportLine b → a = b) ∧
      (∀ p q : Participant, p.reportLines a = q.reportLines b → a = b) ∧
      ∀ title gids others, endpointLines title gids = endpointLines title others →
        gids = others := by
  refine ⟨?_, text_injective, fun h => ?_, fun h => ?_,
    fun _ _ => Entity.gid_eq_of_reportLine, fun _ _ => Participant.gid_eq_of_reportLines,
    fun _ _ _ => gids_eq_of_endpointLines⟩
  · have hnumerals : (fun byte : UInt8 => Nat.toDigits 16 byte.toNat) = Hex.short :=
      funext fun byte => (Hex.short_eq_toDigits byte).symm
    rw [hnumerals, text]
  · rw [labelled, labelled, String.append_left_inj, String.append_right_inj] at h
    exact text_injective h
  · have hwording (gid : Gid) : (Error.participantNotFound gid).message =
        "participant " ++ gid.text ++ " not found in graph cache" := rfl
    rw [hwording, hwording, String.append_left_inj, String.append_right_inj] at h
    exact text_injective h

example : (Gid.padded [171, 0, 16]).text = "ab.0.10.0.0.0.0.0.0.0.0.0.0.0.0.0" := by decide

end DiscoveryGraph
