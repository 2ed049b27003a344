import DiscoveryGraph.Security.Files

/-!
# Whether and how to communicate securely

The keystore holds all enclaves below one directory. A leading slash of an
enclave does not count, so that no enclave leads out of the keystore by an
absolute path. If the files of the enclave cannot be found, the strategy
decides between failing and going on without security.
-/

namespace DiscoveryGraph

/-- What to do when the security files are incomplete. -/
inductive SecurityStrategy
  /-- Fail. -/
  | enforce
  /-- Go on without security. -/
  | permissive
  deriving DecidableEq, Inhabited, Repr

/-- The settings for secure communication. -/
structure SecuritySettings where
  strategy : SecurityStrategy
  /-- The directory of all enclaves, if it is set. -/
  keystore : Option String
  enclave : String
  deriving DecidableEq, Repr

namespace SecuritySettings

/-- The enclave without leading slashes. -/
def relativeEnclave (s : SecuritySettings) : String :=
  String.ofList (s.enclave.toList.dropWhile (· == '/'))

/-- The directory of the enclave, if the keystore is set. -/
def enclaveRoot (s : SecuritySettings) : Option String :=
  s.keystore.map fun keystore =>
    let enclaves := Path.join keystore "enclaves"
    if s.relativeEnclave.isEmpty then enclaves
    else Path.join enclaves s.relativeEnclave

/-- Looks up the security files of the enclave. -/
def lookup (s : SecuritySettings) (fs : FileSystem) (scheme : String) :
    Except Error SecurityFiles :=
  match s.enclaveRoot with
  | some root => securityFiles fs scheme root
  | none => .error (.invalidArgument .keystoreUnset)

/-- The security files of the enclave, or nothing where the strategy allows to
go on without. -/
def resolve (s : SecuritySettings) (fs : FileSystem) (scheme : String) :
    Except Error (Option SecurityFiles) :=
  match s.lookup fs scheme with
  | .ok files => .ok (some files)
  | .error e =>
      match s.strategy with
      | .enforce => .error e
      | .permissive => .ok none

end SecuritySettings

end DiscoveryGraph
