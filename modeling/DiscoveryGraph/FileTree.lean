import DiscoveryGraph.Path
import Std.Data.HashSet

/-!
# Finite file trees

A `FileTree` is a directory with everything below it. A path is followed in it
component by component, and every component but the last has to lead to a
directory, also where a later one leads back. Making a file or a directory
therefore makes every directory that its path passes. Absolute paths, overlong
paths and paths that leave the tree lead nowhere.

Security files are looked up in any `FileSystem`; a tree is one to run the lookup
in.
-/

namespace DiscoveryGraph

/-- A place in a tree: the names that lead to it, the innermost first. -/
abbrev FileTree.Location := List String

/-- The files and the directories below one directory. -/
structure FileTree where
  files : Std.HashSet FileTree.Location
  directories : Std.HashSet FileTree.Location

namespace FileTree

/-- How many bytes a path has at most. -/
def longestPath : Nat := 4095

/-- The components of a path that can lead somewhere in a tree. -/
def components? (path : String) : Option (List String) :=
  if Path.isAbsolute path || longestPath < path.utf8ByteSize then none
  else some (path.splitOn "/")

/-- Where a component leads to from a location. Nothing is above the tree. -/
def step? (location : Location) (component : String) : Option Location :=
  if component = "" ∨ component = "." then some location
  else if component = ".." then location.tail?
  else some (component :: location)

/-- The locations that components pass, from the first to the one they end at,
or to the last one inside the tree. -/
def trail (location : Location) : List String → List Location
  | [] => [location]
  | c :: rest =>
      location :: match step? location c with
        | some next => trail next rest
        | none => []

/-- The tree in which the given directories and files were made, with all
directories that their paths pass. -/
def ofPaths (files directories : List String) : FileTree :=
  let ends := files.filterMap components?
  let parents := ends.map List.dropLast ++ directories.filterMap components?
  ⟨.ofList (ends.filterMap fun path => path.foldlM step? []),
    .ofList (parents.flatMap (trail []))⟩

/-- Whether a location is a directory, as the top of the tree is. -/
def isDirectory (t : FileTree) (location : Location) : Bool :=
  location.isEmpty || t.directories.contains location

/-- Where the components of a path lead to from a location. -/
def walk? (t : FileTree) (location : Location) : List String → Option Location
  | [] => some location
  | c :: rest =>
      if t.isDirectory location then
        (step? location c).bind fun next => t.walk? next rest
      else none

/-- Whether a path leads to a regular file. -/
def isFile (t : FileTree) (path : String) : Bool :=
  match (components? path).bind (t.walk? []) with
  | some location => t.files.contains location && !t.isDirectory location
  | none => false

end FileTree

end DiscoveryGraph
