import DiscoveryGraph.Cdr.Fault
import DiscoveryGraph.Gid

/-!
# Errors

Every failure is a cause with the data it concerns. The wording is kept in one
place, `Error.message`, so that no operation builds texts of its own.
-/

namespace DiscoveryGraph

/-- The fully qualified name of a node. -/
structure NodeName where
  /-- The name inside the namespace. -/
  name : String
  /-- The namespace of the node. -/
  ns : String
  deriving DecidableEq, Inhabited, Repr

/-- An argument that an operation cannot work with. -/
inductive ArgumentFault
  | emptyGid
  | listenerRunning
  | keystoreUnset
  deriving DecidableEq, Repr

/-- The wording of an argument fault. -/
def ArgumentFault.text : ArgumentFault → String
  | emptyGid => "empty gid"
  | listenerRunning => "graph listener already running"
  | keystoreUnset => "ROS_SECURITY_KEYSTORE is not set"

/-- Why an operation failed. -/
inductive Error
  /-- An argument is unusable. -/
  | invalidArgument (fault : ArgumentFault)
  /-- The graph knows no such participant. -/
  | participantNotFound (participant : Gid)
  /-- The participant has no such node. -/
  | nodeNotFound (node : NodeName)
  /-- No participant has such a node. -/
  | nodeNameNonExistent (node : NodeName)
  /-- Memory could not be had. -/
  | badAlloc
  /-- The text is no type hash. -/
  | invalidTypeHash (text : String)
  /-- Serialized data is refused. -/
  | serialization (offset : Nat) (fault : Cdr.Fault)
  /-- A required security file is missing. -/
  | missingSecurityFile (path : String)
  /-- A snapshot could not be handed over. -/
  | publish (text : String)
  /-- A failure that has no category of its own. -/
  | unexpected (text : String)
  deriving DecidableEq

/-- A node as messages name it. -/
def NodeName.quoted (node : NodeName) : String :=
  "'" ++ node.name ++ "' in namespace '" ++ node.ns ++ "'"

/-- The wording of an error. -/
def Error.message : Error → String
  | invalidArgument fault => "invalid argument: " ++ fault.text
  | participantNotFound participant =>
      "participant " ++ participant.text ++ " not found in graph cache"
  | nodeNotFound node => "node " ++ node.quoted ++ " not found"
  | nodeNameNonExistent node => "node name non existent: " ++ node.quoted
  | badAlloc => "failed to allocate output"
  | invalidTypeHash text => "invalid type hash: " ++ text
  | serialization offset fault =>
      "serialization failed at offset " ++ Nat.repr offset ++ ": " ++ fault.reason
  | missingSecurityFile path => "missing security file: " ++ path
  | publish text => "failed to publish participant entities info: " ++ text
  | unexpected text => "unexpected error: " ++ text

/-- The identity that `data` stands for; empty data is refused. -/
def Gid.ofBytes (data : List UInt8) : Except Error Gid :=
  match Gid.ofBytes? data with
  | some gid => .ok gid
  | none => .error (.invalidArgument .emptyGid)

end DiscoveryGraph
