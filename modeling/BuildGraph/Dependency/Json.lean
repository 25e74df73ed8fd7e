import BuildGraph.Dependency
import BuildGraph.Json.Collection

/-! Nodes of the dependency relation as JSON objects with their kind, and identities of targets. -/

namespace BuildGraph

open Json

/-- The ways of linking by their names. -/
def Linking.choices : Choices Linking :=
  -- The order is that in which errors list the names.
  [("static", .static), ("dynamic", .dynamic)]

/-- The name of a way of linking. -/
def Linking.text : Linking → String
  -- Each name is the one under which the choice finds the way again.
  | static => "static"
  | dynamic => "dynamic"

/-- A way of linking by its name. -/
def Linking.toJson (l : Linking) : Value :=
  -- A name and no object, as nothing belongs to it.
  .string l.text

namespace TargetId

/-- An identity from its path and name. -/
def reader : Reader TargetId := fun s => do
  -- Both parts must be given, since neither has a default.
  let (path, name, ()) ← Fields.read "struct TargetReference" false
    (.required "path" Reader.path <| .required "name" Reader.string .done) s
  return ⟨path, name⟩

/-- An identity as its path and name. -/
def toJson (id : TargetId) : Value :=
  -- The path keeps its spelling.
  .object [("path", id.path.toJson), ("name", .string id.name)]

end TargetId

namespace Dependency

/-- The kinds of nodes by their names, each with a way to read what stands beside its name. -/
def variants : Choices (Payload → Except Error Dependency) := [
  -- The order is that in which errors list the kinds; each kind has the fields that its constructor
  -- has.
  ("target", fun payload => do
    let (name, path, ()) ← Fields.ofPayload "struct variant GraphDependency::Target"
      (.required "name" Content.text <| .required "path" Content.path .done) payload
    return .target name path),
  ("foreign_build_output", fun payload => do
    let (name, path, linking, ()) ←
      Fields.ofPayload "struct variant GraphDependency::ForeignBuildOutput"
        (.required "name" Content.text <| .required "path" Content.path <|
          .required "linking" (Content.choice Linking.choices) .done) payload
    return .foreignOutput name path linking),
  ("framework", fun payload => do
    let (path, linking, ()) ← Fields.ofPayload "struct variant GraphDependency::Framework"
      (.required "path" Content.path <|
        .required "linking" (Content.choice Linking.choices) .done) payload
    return .framework path linking),
  ("library", fun payload => do
    let (path, linking, ()) ← Fields.ofPayload "struct variant GraphDependency::Library"
      (.required "path" Content.path <|
        .required "linking" (Content.choice Linking.choices) .done) payload
    return .library path linking),
  ("package", fun payload => do
    let (product, ()) ← Fields.ofPayload "struct variant GraphDependency::Package"
      (.required "product" Content.text .done) payload
    return .package product),
  ("sdk", fun payload => do
    let (name, ()) ← Fields.ofPayload "struct variant GraphDependency::Sdk"
      (.required "name" Content.text .done) payload
    return .sdk name)]

/-- A node from its kind and what belongs to it. -/
def reader : Reader Dependency := fun s => do
  -- The kind may stand anywhere in the object, so what is beside it is read second.
  let (read, payload) ← Reader.tagged "GraphDependency" variants s
  read payload

/-- A node as its kind and what belongs to it. -/
def toJson : Dependency → Value
  -- The kind is written first, and then the parts in the order of the constructor.
  | target name path =>
    .object [("kind", .string "target"), ("name", .string name), ("path", path.toJson)]
  | foreignOutput name path linking =>
    .object [("kind", .string "foreign_build_output"), ("name", .string name),
      ("path", path.toJson), ("linking", linking.toJson)]
  | framework path linking =>
    .object [("kind", .string "framework"), ("path", path.toJson), ("linking", linking.toJson)]
  | library path linking =>
    .object [("kind", .string "library"), ("path", path.toJson), ("linking", linking.toJson)]
  | package product => .object [("kind", .string "package"), ("product", .string product)]
  | sdk name => .object [("kind", .string "sdk"), ("name", .string name)]

end Dependency

end BuildGraph
