/-!
# What can be wrong with a serialized message

The faults of reading and writing CDR, each with its wording. Where a fault
occurred is not part of it: the error that carries a fault carries the offset.
-/

namespace DiscoveryGraph.Cdr

/-- A cause for which serialized data is refused. -/
inductive Fault
  /-- The message is too short to name its encapsulation. -/
  | missingEncapsulation
  /-- The first two bytes name a foreign encapsulation. -/
  | foreignEncapsulation (kind : String)
  /-- The data ends inside a field. -/
  | endOfBuffer
  /-- A count announces more elements than the rest of the data can hold. -/
  | excessiveCount
  /-- A count or length does not fit 32 bits. -/
  | lengthOverflow
  /-- A text to be written contains the terminator. -/
  | embeddedTerminator
  /-- A string of length zero leaves no room for its terminator. -/
  | noTerminatorRoom
  /-- The last byte of a string is not the terminator. -/
  | missingTerminator
  /-- The bytes of a string are not UTF-8. -/
  | illFormedText
  deriving DecidableEq, Repr

/-- The wording of a fault. -/
def Fault.reason : Fault → String
  | missingEncapsulation => "missing encapsulation header"
  | foreignEncapsulation kind => "unsupported encapsulation " ++ kind
  | endOfBuffer => "unexpected end of buffer"
  | excessiveCount => "sequence length exceeds buffer"
  | lengthOverflow => "length exceeds u32"
  | embeddedTerminator => "string contains NUL"
  | noTerminatorRoom => "string length must include terminator"
  | missingTerminator => "string is not NUL terminated"
  | illFormedText => "string is not valid UTF-8"

end DiscoveryGraph.Cdr
