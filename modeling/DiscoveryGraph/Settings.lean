import DiscoveryGraph.Security.Settings

/-!
# Settings from the environment

Settings are read from named variables. A variable that is set to nothing
counts as unset, and a value that makes no sense is replaced by the default, so
that reading never fails.
-/

namespace DiscoveryGraph

/-- The value of each variable that is set. -/
abbrev Environment := String → Option String

/-- How much is logged. -/
inductive LogLevel
  | off
  | error
  | warn
  | info
  | debug
  | trace
  deriving DecidableEq, Inhabited, Repr

/-- The settings of a participant. -/
structure Settings where
  /-- The name of the log level as given. -/
  logLevel : String
  enclave : String
  /-- How long a listener waits for a message, in milliseconds. -/
  pollMilliseconds : Nat
  /-- The settings for secure communication, if it is asked for. -/
  security : Option SecuritySettings
  deriving DecidableEq, Repr

namespace Settings

/-- The enclave that is used unless another one is set. -/
def defaultEnclave : String := "/"

/-- How long a listener waits unless another time is set. -/
def defaultPollMilliseconds : Nat := 100

/-- The settings of an empty environment. -/
def default : Settings where
  logLevel := "info"
  enclave := defaultEnclave
  pollMilliseconds := defaultPollMilliseconds
  security := none

instance : Inhabited Settings := ⟨default⟩

/-- The value of a variable, unless it is empty. -/
def value? (env : Environment) (name : String) : Option String :=
  (env name).filter fun v => !v.isEmpty

/-- Whether two texts agree but for the case of ASCII letters. -/
def equalIgnoringCase (a b : String) : Bool :=
  a.toList.map Char.toLower = b.toList.map Char.toLower

/-- Whether a value switches something on. -/
def isOn (v : String) : Bool := v = "1" || equalIgnoringCase v "true"

/-- The number that decimal digits write. -/
def decimal (digits : List Char) : Nat :=
  digits.foldl (fun n c => 10 * n + (c.toNat - '0'.toNat)) 0

/-- The number of different 64-bit counts. -/
abbrev countRange : Nat := 18446744073709551616

/-- What stands behind the plus sign, if there is one. -/
def unsigned : List Char → List Char
  | '+' :: rest => rest
  | chars => chars

/-- A positive number of milliseconds that fits 64 bits, in decimal digits with
an optional plus sign. -/
def milliseconds? (v : String) : Option Nat :=
  let digits := unsigned v.toList
  if digits.isEmpty || !digits.all Char.isDigit then none
  else
    let n := decimal digits
    if 0 < n ∧ n < countRange then some n else none

/-- The strategy that a value names; every other value is permissive. -/
def strategyOf : Option String → SecurityStrategy
  | some v => if equalIgnoringCase v "enforce" then .enforce else .permissive
  | none => .permissive

/-- The settings that an environment holds. -/
def ofEnvironment (env : Environment) : Settings :=
  let enclave := (value? env "ROS_SECURITY_ENCLAVE").getD defaultEnclave
  let secure := (value? env "ROS_SECURITY_ENABLE").any isOn
  { logLevel := (value? env "HDDS_LOG_LEVEL").getD "info"
    enclave
    pollMilliseconds :=
      ((value? env "HDDS_GRAPH_LISTENER_POLL_MS").bind milliseconds?).getD
        defaultPollMilliseconds
    security :=
      if secure then
        some
          { strategy := strategyOf (value? env "ROS_SECURITY_STRATEGY")
            keystore := value? env "ROS_SECURITY_KEYSTORE"
            enclave }
      else none }

/-- Whether anything differs from the settings of an empty environment. -/
def isCustom (s : Settings) : Bool := s ≠ default

/-- The log level that is named, whatever its case; every other name means
`info`. -/
def level (s : Settings) : LogLevel :=
  if equalIgnoringCase s.logLevel "trace" then .trace
  else if equalIgnoringCase s.logLevel "debug" then .debug
  else if equalIgnoringCase s.logLevel "warn" then .warn
  else if equalIgnoringCase s.logLevel "error" then .error
  else if equalIgnoringCase s.logLevel "off" then .off
  else .info

end Settings

end DiscoveryGraph
