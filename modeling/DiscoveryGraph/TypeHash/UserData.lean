import DiscoveryGraph.Text.Utf8
import DiscoveryGraph.TypeHash
import Std.Data.ExtTreeMap

/-!
# Type hashes in user data

User data is a sequence of tokens separated by semicolons. A token with an
equals sign after at least one byte is a pair; every other token is skipped.
Of two pairs with one key the later one counts. A type hash travels as the pair
with key `typehash`, and every other pair is left to its owner.
-/

namespace DiscoveryGraph.UserData

/-- The byte that ends a token. -/
def separator : UInt8 := 0x3B

/-- The byte between a key and its value. -/
def equals : UInt8 := 0x3D

/-- The tokens of user data, in order; there is one more than separators. -/
def tokens : List UInt8 → List (List UInt8)
  | [] => [[]]
  | b :: rest =>
      if b = separator then [] :: tokens rest
      else (tokens rest).modifyHead (b :: ·)

/-- The bytes before and after the first equals sign of a token, if there is
one and it is not the first byte. -/
def pair? (token : List UInt8) : Option (List UInt8 × List UInt8) :=
  match token.dropWhile (· != equals) with
  | [] => none
  | _ :: value =>
      let key := token.takeWhile (· != equals)
      if key.isEmpty then none else some (key, value)

/-- The pairs of user data, in order. -/
def pairs (data : List UInt8) : List (List UInt8 × List UInt8) :=
  (tokens data).filterMap pair?

/-- User data as a map from keys to values. -/
abbrev Map := Std.ExtTreeMap String (List UInt8)

/-- Enters a pair under its key as text, over any earlier pair with that key. -/
def enter (map : Map) (pair : List UInt8 × List UInt8) : Map :=
  map.insert (Utf8.decodeLossy pair.1) pair.2

/-- Reads user data as a map. -/
def parse (data : List UInt8) : Map := (pairs data).foldl enter ∅

/-- The key under which a type hash travels. -/
def typeHashKey : String := "typehash"

/-- The type hash in user data; user data without one gives the unset hash. -/
def typeHash (data : List UInt8) : Except Error TypeHash :=
  match (parse data)[typeHashKey]? with
  | none => .ok .unset
  | some raw =>
      match Utf8.decode? raw with
      | some text => TypeHash.parse text
      | none => .error (.invalidTypeHash (Utf8.decodeLossy raw))

/-- The token that carries a type hash; an unset hash needs none. -/
def ofTypeHash (h : TypeHash) : String :=
  if h.isUnset then "" else typeHashKey ++ "=" ++ h.text ++ ";"

end DiscoveryGraph.UserData
