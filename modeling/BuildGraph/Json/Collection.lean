import BuildGraph.DeclaredMap
import BuildGraph.Json.Content
import BuildGraph.Json.Value
import BuildGraph.Path
import BuildGraph.SortedMap
import BuildGraph.SortedSet

/-! Paths, sets and maps as JSON. -/

namespace BuildGraph

open Json

/-- What is expected where a path is to stand. -/
def pathExpected : String :=
  -- Paths are texts, but they are asked for in words of their own.
  "a UTF-8 path string"

namespace Json

/-- A path. -/
def Reader.path : Reader Path := fun s =>
  -- Every text is a path, the empty one included.
  (Reader.quoted pathExpected s).map Path.mk

/-- A path. -/
def Content.path (c : Content) : Except Error Path :=
  -- Every text is a path, the empty one included.
  (c.quoted pathExpected).map Path.mk

/-- A set, given by a list; of equal members the first is kept. -/
def Reader.set {α : Type} [Ord α] [Std.TransOrd α] (read : Reader α) : Reader (SortedSet α) :=
  -- A member that is repeated is no error.
  fun s => (Reader.list read s).map .ofList

/-- A map whose keys are spelled as texts; of equal keys the first spelling and the last value
are kept. -/
def Reader.sortedMap {κ ν : Type} [Ord κ] [Std.TransOrd κ] (key : String → κ) (read : Reader ν) :
    Reader (SortedMap κ ν) := fun s =>
  -- A key that is repeated is no error.
  (Reader.members read s).map fun entries => .ofList (entries.map fun e => (key e.1, e.2))

/-- A map in order of declaration; of equal keys the first place and the last value are kept. -/
def Reader.declaredMap {ν : Type} (read : Reader ν) : Reader (DeclaredMap String ν) := fun s =>
  -- A key that is repeated is no error.
  (Reader.members read s).map .ofList

end Json

/-- A path in its spelling. -/
def Path.toJson (p : Path) : Value :=
  -- The spelling is kept, though others are equal to it.
  .string p.text

/-- A set as the list of its members in order. -/
def SortedSet.toJson {α : Type} [Ord α] (write : α → Value) (s : SortedSet α) : Value :=
  -- The order of the set is written, and not that in which it was read.
  .list (s.toList.map write)

/-- A map as an object with its keys in order. -/
def SortedMap.toJson {κ ν : Type} [Ord κ] (key : κ → String) (write : ν → Value)
    (m : SortedMap κ ν) : Value :=
  -- The order of the map is written, and not that in which it was read.
  .object (m.entries.map fun e => (key e.1, write e.2))

/-- A map as an object with its keys in order of declaration. -/
def DeclaredMap.toJson {ν : Type} (write : ν → Value) (m : DeclaredMap String ν) : Value :=
  -- The order of declaration has a meaning, so it is written as it is.
  .object (m.entries.map fun e => (e.1, write e.2))

end BuildGraph
