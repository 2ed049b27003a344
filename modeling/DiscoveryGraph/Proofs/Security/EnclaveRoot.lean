import DiscoveryGraph.Proofs.Security.Resolution
import Mathlib.Data.List.DropRight

/-!
# Enclaves stay below their keystore

Joining an absolute path discards the keystore.  What is joined is the enclave without its
leading slashes, and that is never absolute: the directory of an enclave always begins with
the keystore, and a number of leading slashes makes no difference.
-/

namespace DiscoveryGraph

/-! ## Leading slashes -/

namespace Path

variable {path rest left right : String}

/-- The text of `n` slashes. -/
def slashes (n : Nat) : String := String.ofList (List.replicate n '/')

@[simp]
theorem toList_slashes (n : Nat) : (slashes n).toList = List.replicate n '/' :=
  String.toList_ofList

/-- The path `rest` is all of `path` but its leading slashes. -/
structure Trims (path rest : String) : Prop where
  eq_append : ∃ n, path = slashes n ++ rest
  relative : isAbsolute rest = false

theorem isAbsolute_append_of_ne_empty (hleft : left ≠ "") :
    isAbsolute (left ++ right) = isAbsolute left := by
  have hlist : left.toList ≠ [] := by simpa using hleft
  rw [isAbsolute, isAbsolute, String.toList_append, List.head?_append_of_ne_nil _ hlist]

theorem dropWhile_slash_eq_self_iff :
    path.toList.dropWhile (· == '/') = path.toList ↔ isAbsolute path = false := by
  rw [isAbsolute]
  cases path.toList with
  | nil => simp
  | cons c cs => simp

theorem trims_iff : Trims path rest ↔ rest.toList = path.toList.dropWhile (· == '/') := by
  constructor
  · rintro ⟨⟨n, rfl⟩, hrelative⟩
    rw [String.toList_append, toList_slashes, List.dropWhile_append_of_pos (by simp),
      dropWhile_slash_eq_self_iff.mpr hrelative]
  · intro hrest
    refine ⟨⟨(path.toList.takeWhile (· == '/')).length, ?_⟩, ?_⟩
    · have hslashes : path.toList.takeWhile (· == '/') =
          List.replicate (path.toList.takeWhile (· == '/')).length '/' :=
        List.eq_replicate_length.mpr fun c hc => by simpa using List.mem_takeWhile_imp hc
      rw [← String.toList_inj, String.toList_append, toList_slashes, ← hslashes, hrest,
        List.takeWhile_append_dropWhile]
    · rw [← dropWhile_slash_eq_self_iff, hrest, List.dropWhile_idempotent]

/-- Whether a path is all slashes is decided along the path. -/
instance decidableAllSlashes (path : String) : Decidable (∀ c ∈ path.toList, c = '/') :=
  List.decidableBAll (· = '/') path.toList

theorem Trims.eq_empty_iff (h : Trims path rest) :
    rest = "" ↔ ∀ c ∈ path.toList, c = '/' := by
  rw [← String.toList_eq_nil_iff, trims_iff.mp h, List.dropWhile_eq_nil_iff]
  simp

/-! ## Joining -/

/-- What a path needs behind it before a component can follow. -/
def separator (left : String) : String :=
  if left = "" ∨ left.toList.getLast? = some '/' then "" else "/"

theorem join_of_relative (hright : isAbsolute right = false) :
    join left right = left ++ separator left ++ right := by
  rw [join, if_neg (by simp [hright]), separator]
  by_cases hend : left = "" ∨ left.toList.getLast? = some '/'
  · have hempty : (left.isEmpty || left.toList.getLast? = some '/') = true := by simpa using hend
    rw [if_pos hempty, if_pos hend, String.append_empty]
  · have hempty : ¬ (left.isEmpty || left.toList.getLast? = some '/') = true := by simpa using hend
    rw [if_neg hempty, if_neg hend]

theorem separator_append_of_name {name : String} (hname : IsName name) (left : String) :
    separator (left ++ name) = "/" := by
  refine if_neg ?_
  rintro (hempty | hslash)
  · exact hname.1 (String.append_eq_empty_iff.mp hempty).2
  · have hlist : name.toList ≠ [] := by simpa using hname.1
    rw [String.toList_append, List.getLast?_append_of_ne_nil _ hlist] at hslash
    exact hname.2 (List.mem_of_getLast? hslash)

end Path

/-! ## The directory of an enclave -/

namespace SecuritySettings

open DiscoveryGraph.Path

variable {sec : SecuritySettings} {keystore rest : String}

theorem trims_relativeEnclave (sec : SecuritySettings) :
    Trims sec.enclave sec.relativeEnclave := by
  rw [trims_iff, relativeEnclave, String.toList_ofList]

theorem isName_enclaves : IsName "enclaves" := by
  decide

theorem join_enclaves (keystore : String) :
    join keystore "enclaves" = keystore ++ separator keystore ++ "enclaves" :=
  join_of_relative isName_enclaves.isAbsolute_eq_false

/-- Only what follows the leading slashes of the enclave has a part in its directory. -/
theorem enclaveRoot_of_trims (hkeystore : sec.keystore = some keystore)
    (hrest : Trims sec.enclave rest) :
    sec.enclaveRoot =
      some (join keystore "enclaves" ++ if rest = "" then "" else "/" ++ rest) := by
  have hrelative : sec.relativeEnclave = rest := by
    rw [← String.toList_inj, trims_iff.mp hrest, trims_iff.mp sec.trims_relativeEnclave]
  rw [enclaveRoot, hkeystore, Option.map_some, hrelative]
  by_cases hempty : rest = ""
  · simp [hempty]
  · rw [if_neg (by simpa using hempty), if_neg hempty, join_of_relative hrest.relative,
      join_enclaves, separator_append_of_name isName_enclaves, String.append_assoc]

/-- The directory of an enclave is the keystore's directory of enclaves or, if the enclave
is more than slashes, what follows its leading slashes in there.  So no enclave replaces the
keystore by an absolute path, and the number of leading slashes does not count. -/
theorem enclaveRoot_below_keystore (strategy : SecurityStrategy) (keystore enclave : String) :
    let rootOf (enclave : String) :=
      ({ strategy, keystore := some keystore, enclave } : SecuritySettings).enclaveRoot
    let enclaves := join keystore "enclaves"
    enclaves = keystore ++ separator keystore ++ "enclaves" ∧
      ∃ rest root, Trims enclave rest ∧ rootOf enclave = some root ∧
        root = enclaves ++ (if ∀ c ∈ enclave.toList, c = '/' then "" else "/" ++ rest) ∧
        keystore.toList <+: root.toList ∧
        isAbsolute root = isAbsolute keystore ∧
        ∀ other, Trims other rest → rootOf other = some root := by
  intro rootOf enclaves
  have henclaves : enclaves = keystore ++ separator keystore ++ "enclaves" :=
    join_enclaves keystore
  obtain ⟨rest, htrims⟩ : ∃ rest, Trims enclave rest :=
    ⟨_, trims_relativeEnclave ⟨strategy, some keystore, enclave⟩⟩
  refine ⟨henclaves, rest, enclaves ++ (if rest = "" then "" else "/" ++ rest), htrims,
    enclaveRoot_of_trims rfl htrims, ?text, ?below, ?absolute, ?slashes⟩
  case text =>
    simp only [htrims.eq_empty_iff]
  case below =>
    rw [henclaves, String.append_assoc, String.append_assoc, String.toList_append]
    exact List.prefix_append _ _
  case absolute =>
    rw [henclaves, String.append_assoc, String.append_assoc]
    by_cases hempty : keystore = ""
    · subst hempty
      rw [separator, if_pos (Or.inl rfl), String.empty_append, String.empty_append,
        isAbsolute_append_of_ne_empty isName_enclaves.1]
      rfl
    · exact isAbsolute_append_of_ne_empty hempty
  case slashes =>
    intro other hother
    exact enclaveRoot_of_trims rfl hother

/-- Slashes inside an enclave are kept. -/
example : (⟨.enforce, some "/keys/", "//demo//talker"⟩ : SecuritySettings).enclaveRoot =
    some "/keys/enclaves/demo//talker" := by
  decide

end SecuritySettings

end DiscoveryGraph
