import BuildGraph.Dependency.Json
import BuildGraph.Target

/-! Targets, their phases and their foreign builds as JSON. -/

namespace BuildGraph

open Json

namespace Product

/-- The products by their names. -/
def choices : Choices Product := [
  -- The order is that in which errors list the names.
  ("app", .app), ("framework", .framework), ("static_framework", .staticFramework),
  ("static_library", .staticLibrary), ("dynamic_library", .dynamicLibrary),
  ("unit_tests", .unitTests), ("ui_tests", .uiTests), ("aggregate", .aggregate)]

/-- The name of a product. -/
def text : Product → String
  -- Each name is the one under which the choice finds the product again.
  | app => "app"
  | framework => "framework"
  | staticFramework => "static_framework"
  | staticLibrary => "static_library"
  | dynamicLibrary => "dynamic_library"
  | unitTests => "unit_tests"
  | uiTests => "ui_tests"
  | aggregate => "aggregate"

end Product

namespace PhaseOrder

/-- The times of a phase by their names. -/
def choices : Choices PhaseOrder :=
  -- The order is that in which errors list the names.
  [("pre_build", .before), ("post_build", .after)]

/-- The name of the time of a phase. -/
def text : PhaseOrder → String
  -- Each name is the one under which the choice finds the time again.
  | before => "pre_build"
  | after => "post_build"

end PhaseOrder

namespace BuildPhase

/-- A phase from its fields. -/
def reader : Reader BuildPhase := fun s => do
  -- Both lists of paths may be left out.
  let (name, order, script, inputs, outputs, ()) ← Fields.read "struct TargetScript" false
    (.required "name" Reader.string <| .required "order" (Reader.choice PhaseOrder.choices) <|
      .required "script" Reader.string <| .optional "input_paths" (Reader.list Reader.path) [] <|
      .optional "output_paths" (Reader.list Reader.path) [] .done) s
  return ⟨name, order, script, inputs, outputs⟩

/-- A phase as its fields. -/
def toJson (p : BuildPhase) : Value :=
  -- Fields that may be left out are written nevertheless.
  .object [("name", .string p.name), ("order", .string p.order.text),
    ("script", .string p.script), ("input_paths", .list (p.inputPaths.map Path.toJson)),
    ("output_paths", .list (p.outputPaths.map Path.toJson))]

end BuildPhase

namespace ForeignInput

/-- The kinds of inputs by their names, each with a way to read what stands beside its name. -/
def variants : Choices (Payload → Except Error ForeignInput) := [
  -- A path or a text is expected under the name that the kind gives it.
  ("file", fun payload => do
    let (path, ()) ← Fields.ofPayload "struct variant ForeignBuildInput::File"
      (.required "path" Content.path .done) payload
    return .file path),
  ("folder", fun payload => do
    let (path, ()) ← Fields.ofPayload "struct variant ForeignBuildInput::Folder"
      (.required "path" Content.path .done) payload
    return .folder path),
  ("script", fun payload => do
    let (body, ()) ← Fields.ofPayload "struct variant ForeignBuildInput::Script"
      (.required "script" Content.text .done) payload
    return .script body)]

/-- An input from its kind and its path or text. -/
def reader : Reader ForeignInput := fun s => do
  -- The kind may stand anywhere in the object, so what is beside it is read second.
  let (read, payload) ← Reader.tagged "ForeignBuildInput" variants s
  read payload

/-- An input as its kind and its path or text. -/
def toJson : ForeignInput → Value
  -- The kind is written first.
  | file path => .object [("kind", .string "file"), ("path", path.toJson)]
  | folder path => .object [("kind", .string "folder"), ("path", path.toJson)]
  | script text => .object [("kind", .string "script"), ("script", .string text)]

end ForeignInput

namespace ForeignArtifact

/-- An artefact from its path and its linking. -/
def reader : Reader ForeignArtifact := fun s => do
  -- Neither field has a stand-in.
  let (path, linking, ()) ← Fields.read "struct ForeignBuildArtifact" false
    (.required "path" Reader.path <| .required "linking" (Reader.choice Linking.choices) .done) s
  return ⟨path, linking⟩

/-- An artefact as its path and its linking. -/
def toJson (a : ForeignArtifact) : Value :=
  -- The path keeps its spelling.
  .object [("path", a.path.toJson), ("linking", a.linking.toJson)]

end ForeignArtifact

namespace ForeignBuild

/-- A foreign build from its fields. -/
def reader : Reader ForeignBuild := fun s => do
  -- A build may do without inputs, but not without an output.
  let (script, inputs, output, ()) ← Fields.read "struct ForeignBuild" false
    (.required "script" Reader.string <| .optional "inputs" (Reader.list ForeignInput.reader) [] <|
      .required "output" ForeignArtifact.reader .done) s
  return ⟨script, inputs, output⟩

/-- A foreign build as its fields. -/
def toJson (b : ForeignBuild) : Value :=
  -- Inputs are written even if there are none.
  .object [("script", .string b.script), ("inputs", .list (b.inputs.map ForeignInput.toJson)),
    ("output", b.output.toJson)]

end ForeignBuild

namespace Target

/-- The tags of a target from the record that holds them. -/
def tagsReader : Reader (SortedSet String) := fun s => do
  -- The record may be empty.
  let (tags, ()) ← Fields.read "struct TargetMetadata" false
    (.optional "tags" (Reader.set Reader.string) {} .done) s
  return tags

/-- The tags of a target as the record that holds them. -/
def tagsJson (tags : SortedSet String) : Value :=
  -- The tags are written in order.
  .object [("tags", tags.toJson .string)]

/-- A target from its fields. -/
def reader : Reader Target := fun s => do
  -- Only the name and the product must be given.
  let (name, product, pruned, phases, tags, foreignBuild, ()) ← Fields.read "struct Target" false
    (.required "name" Reader.string <| .required "product" (Reader.choice Product.choices) <|
      .optional "prune" Reader.bool false <|
      .optional "scripts" (Reader.list BuildPhase.reader) [] <|
      .optional "metadata" tagsReader {} <|
      .optional "foreign_build" (Reader.option ForeignBuild.reader) none .done) s
  return { name, product, pruned, phases, tags, foreignBuild }

/-- A target as its fields; one without a foreign build does not mention it. -/
def toJson (t : Target) : Value :=
  -- The field that is left out is the only one that may be nothing.
  .object ([("name", .string t.name), ("product", .string t.product.text),
    ("prune", .bool t.pruned), ("scripts", .list (t.phases.map BuildPhase.toJson)),
    ("metadata", .object [("tags", t.tags.toJson .string)])]
    ++ (t.foreignBuild.map fun build => ("foreign_build", build.toJson)).toList)

end Target

end BuildGraph
