import DiscoveryGraph.Error
import DiscoveryGraph.Path

/-!
# Security files of an enclave

An enclave is a directory with one file for each artefact that secure
communication needs. All artefacts but the revocation list are required. The
file system enters only as a predicate that says which paths are regular files.
-/

namespace DiscoveryGraph

/-- Says whether a path names a regular file. -/
abbrev FileSystem := String → Bool

/-- What secure communication needs from an enclave. -/
inductive Artefact
  | identityAuthority
  | certificate
  | privateKey
  | permissionsAuthority
  | governance
  | permissions
  | revocationList
  deriving DecidableEq, Repr

namespace Artefact

/-- The artefacts without which nothing works, in the order of lookup. -/
def required : List Artefact :=
  [identityAuthority, certificate, privateKey, permissionsAuthority, governance, permissions]

/-- The artefacts that may be missing. -/
def optional : List Artefact := [revocationList]

/-- The name under which an artefact is reported. -/
def label : Artefact → String
  | identityAuthority => "IDENTITY_CA"
  | certificate => "CERTIFICATE"
  | privateKey => "PRIVATE_KEY"
  | permissionsAuthority => "PERMISSIONS_CA"
  | governance => "GOVERNANCE"
  | permissions => "PERMISSIONS"
  | revocationList => "CRL"

/-- The file of an artefact. -/
def file : Artefact → String
  | identityAuthority => "identity_ca.cert.pem"
  | certificate => "cert.pem"
  | privateKey => "key.pem"
  | permissionsAuthority => "permissions_ca.cert.pem"
  | governance => "governance.p7s"
  | permissions => "permissions.p7s"
  | revocationList => "crl.pem"

/-- The path of an artefact in an enclave. -/
def path (root : String) (a : Artefact) : String := Path.join root a.file

end Artefact

/-- The artefacts of an enclave, each with its location. -/
abbrev SecurityFiles := List (Artefact × String)

/-- Looks up the artefacts under `root` and puts `scheme` before their paths.
The first required artefact that is missing is the error. -/
def securityFiles (fs : FileSystem) (scheme root : String) : Except Error SecurityFiles :=
  match Artefact.required.find? fun a => !fs (a.path root) with
  | some missing => .error (.missingSecurityFile (missing.path root))
  | none =>
      let present := Artefact.optional.filter fun a => fs (a.path root)
      .ok ((Artefact.required ++ present).map fun a => (a, scheme ++ a.path root))

end DiscoveryGraph
