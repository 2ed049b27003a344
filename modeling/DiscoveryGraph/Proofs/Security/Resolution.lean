import DiscoveryGraph.Proofs.Settings
import Mathlib.Data.List.Nodup

/-!
# Security that fails closed

Under the enforcing strategy a participant communicates securely or not at all: the lookup
of its files either lists every required artefact or fails.  The permissive strategy looks
in the same places and differs only in what it makes of a failure.
-/

namespace DiscoveryGraph

/-! ## Paths of files -/

namespace Path

variable {root name left right : String}

/-- A component of a path. -/
def IsName (name : String) : Prop := name ≠ "" ∧ '/' ∉ name.toList

instance (name : String) : Decidable (IsName name) :=
  inferInstanceAs (Decidable (_ ∧ _))

/-- The path is that of an entry of the directory `root` itself. -/
def IsChild (root path : String) : Prop :=
  ∃ name, IsName name ∧
    (path = root ++ "/" ++ name ∨ root.toList.getLast? = some '/' ∧ path = root ++ name)

theorem IsName.isAbsolute_eq_false (hname : IsName name) : isAbsolute name = false := by
  have hhead : name.toList.head? ≠ some '/' :=
    fun hslash => hname.2 (List.mem_of_mem_head? hslash)
  simpa [isAbsolute] using hhead

theorem isChild_join (hroot : root ≠ "") (hname : IsName name) :
    IsChild root (join root name) := by
  refine ⟨name, hname, ?_⟩
  have hempty : root.isEmpty = false := by simpa using hroot
  rw [join, if_neg (by simp [hname.isAbsolute_eq_false]), hempty, Bool.false_or]
  split
  · next hslash => exact .inr ⟨of_decide_eq_true hslash, rfl⟩
  · exact .inl rfl

theorem join_ne_empty (left : String) (hright : right ≠ "") : join left right ≠ "" := by
  rw [join]
  split_ifs <;> simp [hright]

end Path

/-! ## The files of an enclave -/

namespace Artefact

variable {fs : FileSystem} {root : String}

theorem isName_file (a : Artefact) : Path.IsName a.file := by
  cases a <;> decide

theorem label_injective : Function.Injective label := by
  intro a b
  cases a <;> cases b <;> decide

theorem nodup_required_append_optional : (required ++ optional).Nodup := by
  decide

/-- The artefact is missing, and every one required before it is there. -/
def FirstMissing (fs : FileSystem) (root : String) (a : Artefact) : Prop :=
  fs (a.path root) = false ∧ ∃ before after, required = before ++ a :: after ∧
    ∀ b ∈ before, fs (b.path root) = true

theorem find?_eq_some_iff_firstMissing {a : Artefact} :
    (required.find? fun a => !fs (a.path root)) = some a ↔ FirstMissing fs root a := by
  simp only [List.find?_eq_some_iff_append, Bool.not_eq_true', Bool.not_not, FirstMissing]

/-- The artefacts whose files are found at `root` if no required one is missing. -/
def found (fs : FileSystem) (root : String) : List Artefact :=
  required ++ optional.filter fun a => fs (a.path root)

theorem mem_found_iff {a : Artefact} :
    a ∈ found fs root ↔ a ∈ required ∨ a = .revocationList ∧ fs (a.path root) = true := by
  rw [found, List.mem_append, List.mem_filter]
  exact or_congr_right (and_congr_left' List.mem_singleton)

theorem nodup_found : (found fs root).Nodup :=
  nodup_required_append_optional.sublist (List.filter_sublist.append_left required)

end Artefact

section Files

open Artefact

variable {fs : FileSystem} {scheme root : String} {files : SecurityFiles} {e : Error}

theorem securityFiles_eq_error_iff :
    securityFiles fs scheme root = .error e ↔
      ∃ a, FirstMissing fs root a ∧ e = .missingSecurityFile (a.path root) := by
  simp only [← find?_eq_some_iff_firstMissing]
  rw [securityFiles]
  split
  · next missing hmissing => simp [hmissing, eq_comm]
  · next hnone => simp [hnone]

theorem securityFiles_eq_ok_iff :
    securityFiles fs scheme root = .ok files ↔
      (∀ a ∈ required, fs (a.path root) = true) ∧
        files = (found fs root).map fun a => (a, scheme ++ a.path root) := by
  rw [securityFiles]
  split
  · next missing hmissing =>
      have hfs : fs (missing.path root) = false := by simpa using List.find?_some hmissing
      have hmem : missing ∈ required := List.mem_of_find?_eq_some hmissing
      constructor
      · intro h
        contradiction
      · rintro ⟨hall, -⟩
        rw [hall missing hmem] at hfs
        contradiction
  · next hnone =>
      have hall : ∀ a ∈ required, fs (a.path root) = true := by
        simpa using List.find?_eq_none.mp hnone
      constructor
      · intro h
        exact ⟨hall, (Except.ok.inj h).symm⟩
      · rintro ⟨-, rfl⟩
        rfl

/-- The names that are reported for the enclave at `root` are those of the required
artefacts, with the revocation list where it is there, and each leads to a regular file of
the enclave. -/
structure SecurityFiles.Lists (fs : FileSystem) (scheme root : String) (files : SecurityFiles) :
    Prop where
  nodup : (files.map fun entry => entry.1.label).Nodup
  mem_iff : ∀ label, label ∈ files.map (fun entry => entry.1.label) ↔
    label ∈ required.map Artefact.label ∨
      label = "CRL" ∧ fs (Path.join root "crl.pem") = true
  located : ∀ entry ∈ files, entry.2 = scheme ++ entry.1.path root
  regular : ∀ entry ∈ files,
    Path.IsChild root (entry.1.path root) ∧ fs (entry.1.path root) = true

theorem lists_of_securityFiles_eq_ok (hroot : root ≠ "")
    (hfiles : securityFiles fs scheme root = .ok files) :
    SecurityFiles.Lists fs scheme root files := by
  obtain ⟨hall, rfl⟩ := securityFiles_eq_ok_iff.mp hfiles
  have hlabels : ((found fs root).map fun a => (a, scheme ++ a.path root)).map
      (fun entry => entry.1.label) = (found fs root).map Artefact.label := by
    rw [List.map_map]
    rfl
  refine ⟨?nodup, ?mem_iff, ?located, ?regular⟩
  case nodup =>
    rw [hlabels]
    exact nodup_found.map label_injective
  case mem_iff =>
    intro label
    rw [hlabels]
    simp only [List.mem_map, mem_found_iff, or_and_right, exists_or]
    refine or_congr_right ⟨?_, ?_⟩
    · rintro ⟨a, ⟨rfl, hregular⟩, rfl⟩
      exact ⟨rfl, hregular⟩
    · rintro ⟨rfl, hregular⟩
      exact ⟨.revocationList, ⟨rfl, hregular⟩, rfl⟩
  case located =>
    intro entry hentry
    obtain ⟨a, -, rfl⟩ := List.mem_map.mp hentry
    rfl
  case regular =>
    intro entry hentry
    obtain ⟨a, ha, rfl⟩ := List.mem_map.mp hentry
    refine ⟨Path.isChild_join hroot a.isName_file, ?_⟩
    rcases mem_found_iff.mp ha with hrequired | ⟨-, hregular⟩
    · exact hall a hrequired
    · exact hregular

end Files

/-! ## Settings that name a keystore -/

namespace Settings

variable {env : Environment} {sec : SecuritySettings}

/-- The environment names a keystore. -/
def NamesKeystore (env : Environment) : Prop :=
  ∃ keystore, env "ROS_SECURITY_KEYSTORE" = some keystore ∧ keystore ≠ ""

theorem keystore_of_security (hsec : (ofEnvironment env).security = some sec) :
    sec.keystore = value? env "ROS_SECURITY_KEYSTORE" := by
  rw [ofEnvironment] at hsec
  simp only at hsec
  split at hsec
  · rw [← Option.some.inj hsec]
  · contradiction

theorem isSome_enclaveRoot_iff (hsec : (ofEnvironment env).security = some sec) :
    sec.enclaveRoot.isSome ↔ NamesKeystore env := by
  rw [SecuritySettings.enclaveRoot, Option.isSome_map, keystore_of_security hsec,
    Option.isSome_iff_exists, NamesKeystore]
  simp only [value?_eq_some_iff]

end Settings

/-! ## The two strategies -/

namespace SecuritySettings

variable {env : Environment} {sec : SecuritySettings} {fs : FileSystem} {scheme root : String}

theorem ne_empty_of_enclaveRoot (hroot : sec.enclaveRoot = some root) : root ≠ "" := by
  obtain ⟨keystore, -, rfl⟩ := Option.map_eq_some_iff.mp hroot
  have henclaves : Path.join keystore "enclaves" ≠ "" := Path.join_ne_empty keystore (by decide)
  simp only
  split
  · exact henclaves
  · next hrelative => exact Path.join_ne_empty _ (by simpa using hrelative)

theorem lookup_of_none (hroot : sec.enclaveRoot = none) :
    sec.lookup fs scheme = .error (.invalidArgument .keystoreUnset) := by
  rw [lookup, hroot]

theorem lookup_of_some (hroot : sec.enclaveRoot = some root) :
    sec.lookup fs scheme = securityFiles fs scheme root := by
  rw [lookup, hroot]

theorem resolve_eq_ok_iff (henforce : sec.strategy = .enforce) {r : Option SecurityFiles} :
    sec.resolve fs scheme = .ok r ↔ ∃ files, sec.lookup fs scheme = .ok files ∧ r = some files := by
  rw [resolve, henforce]
  cases sec.lookup fs scheme <;> simp [eq_comm]

theorem resolve_eq_error_iff (henforce : sec.strategy = .enforce) {e : Error} :
    sec.resolve fs scheme = .error e ↔ sec.lookup fs scheme = .error e := by
  rw [resolve, henforce]
  cases sec.lookup fs scheme <;> simp

theorem resolve_of_permissive (hpermissive : sec.strategy = .permissive) :
    sec.resolve fs scheme = .ok (sec.lookup fs scheme).toOption := by
  rw [resolve, hpermissive]
  cases sec.lookup fs scheme <;> rfl

/-- With the enforcing strategy, the files of the enclave are found or an error tells why
not.  With the permissive one the same files are found, and every error becomes a
participant without security. -/
theorem resolve_fails_closed (hsec : (Settings.ofEnvironment env).security = some sec)
    (henforce : sec.strategy = .enforce) (fs : FileSystem) (scheme : String) :
    let strict := sec.resolve fs scheme
    let lax := ({ sec with strategy := .permissive } : SecuritySettings).resolve fs scheme
    strict ≠ .ok none ∧
      (¬ Settings.NamesKeystore env → strict = .error (.invalidArgument .keystoreUnset)) ∧
      (Settings.NamesKeystore env → ∃ root, sec.enclaveRoot = some root ∧
        (∀ files, strict = .ok (some files) → SecurityFiles.Lists fs scheme root files) ∧
        ∀ e, strict = .error e ↔
          ∃ a, Artefact.FirstMissing fs root a ∧ e = .missingSecurityFile (a.path root)) ∧
      (∀ e, lax ≠ .error e) ∧
      (∀ files, strict = .ok (some files) → lax = .ok (some files)) ∧
      (lax = .ok none ↔ ∃ e, strict = .error e) := by
  intro strict lax
  have hok : ∀ files, strict = .ok (some files) → sec.lookup fs scheme = .ok files := by
    intro files hfiles
    obtain ⟨_, hlookup, heq⟩ := (resolve_eq_ok_iff henforce).mp hfiles
    rwa [Option.some.inj heq]
  have herror : ∀ e, strict = .error e ↔ sec.lookup fs scheme = .error e :=
    fun e => resolve_eq_error_iff henforce
  have hlax : lax = .ok (sec.lookup fs scheme).toOption := resolve_of_permissive rfl
  refine ⟨?never_without, ?no_keystore, ?keystore, ?no_error, ?same_files, ?failure⟩
  case never_without =>
    intro hnone
    obtain ⟨_, -, hfiles⟩ := (resolve_eq_ok_iff henforce).mp hnone
    contradiction
  case no_keystore =>
    intro hunnamed
    have hroot : sec.enclaveRoot = none := by
      rwa [← Option.not_isSome_iff_eq_none, Settings.isSome_enclaveRoot_iff hsec]
    exact (herror _).mpr (lookup_of_none hroot)
  case keystore =>
    intro hnamed
    obtain ⟨root, hroot⟩ :=
      Option.isSome_iff_exists.mp ((Settings.isSome_enclaveRoot_iff hsec).mpr hnamed)
    have hlookup : sec.lookup fs scheme = securityFiles fs scheme root := lookup_of_some hroot
    rw [hlookup] at hok herror
    refine ⟨root, hroot, ?_, ?_⟩
    · intro files hfiles
      exact lists_of_securityFiles_eq_ok (ne_empty_of_enclaveRoot hroot) (hok files hfiles)
    · intro e
      exact (herror e).trans securityFiles_eq_error_iff
  case no_error =>
    intro e he
    rw [hlax] at he
    contradiction
  case same_files =>
    intro files hfiles
    rw [hlax, hok files hfiles]
    rfl
  case failure =>
    rw [hlax]
    simp only [herror]
    cases sec.lookup fs scheme <;> simp [Except.toOption]

/-- An environment that asks for security in unusual spellings. -/
def guardedEnvironment : Environment := fun name =>
  [("ROS_SECURITY_ENABLE", "TRUE"), ("ROS_SECURITY_STRATEGY", "eNforce"),
    ("ROS_SECURITY_KEYSTORE", "/keys"), ("ROS_SECURITY_ENCLAVE", "//talker")].lookup name

/-- The security settings in that environment. -/
def guardedTalker : SecuritySettings where
  strategy := .enforce
  keystore := some "/keys"
  enclave := "//talker"

/-- A file system with one of the required files. -/
def sparseFiles : FileSystem := (· = "/keys/enclaves/talker/identity_ca.cert.pem")

theorem resolve_guardedTalker :
    (Settings.ofEnvironment guardedEnvironment).security = some guardedTalker ∧
      guardedTalker.strategy = .enforce ∧
      guardedTalker.resolve sparseFiles "file://" =
        .error (.missingSecurityFile "/keys/enclaves/talker/cert.pem") ∧
      ({ guardedTalker with strategy := .permissive } : SecuritySettings).resolve sparseFiles
        "file://" = .ok none := by
  have hsec : (Settings.ofEnvironment guardedEnvironment).security = some guardedTalker := by
    decide
  obtain ⟨-, -, hkeystore, -, -, hfailure⟩ :=
    resolve_fails_closed hsec rfl sparseFiles "file://"
  obtain ⟨root, hroot, -, herror⟩ := hkeystore ⟨"/keys", by decide, by decide⟩
  have hpath : guardedTalker.enclaveRoot = some "/keys/enclaves/talker" := by decide
  obtain rfl : root = "/keys/enclaves/talker" := Option.some.inj (hroot.symm.trans hpath)
  have hmissing : Artefact.FirstMissing sparseFiles "/keys/enclaves/talker" .certificate :=
    ⟨by decide, [.identityAuthority], _, rfl, by decide⟩
  have hstrict := (herror _).mpr ⟨.certificate, hmissing, rfl⟩
  exact ⟨hsec, rfl, hstrict, hfailure.mpr ⟨_, hstrict⟩⟩

end SecuritySettings

end DiscoveryGraph
