import BuildGraph.Dependency.Json
import BuildGraph.Ledger

/-! Artefacts that are there already, and the notes of a run, as JSON. -/

namespace BuildGraph

open Json

/-- The shapes of artefacts by their names. -/
def Shape.choices : Choices Shape :=
  -- The order is that in which errors list the names.
  [("framework", .framework), ("library", .library)]

/-- The name of a shape. -/
def Shape.text : Shape → String
  -- Each name is the one under which the choice finds the shape again.
  | framework => "framework"
  | library => "library"

namespace Prebuilt

/-- An artefact from its fields. -/
def reader : Reader Prebuilt := fun s => do
  -- All three must be given, since nothing can be guessed of an artefact.
  let (path, shape, linking, ()) ← Fields.read "struct CachedArtifact" false
    (.required "path" Reader.path <| .required "kind" (Reader.choice Shape.choices) <|
      .required "linking" (Reader.choice Linking.choices) .done) s
  return ⟨path, shape, linking⟩

/-- An artefact as its fields. -/
def toJson (a : Prebuilt) : Value :=
  -- The shape goes by the name of a kind.
  .object [("path", a.path.toJson), ("kind", .string a.shape.text), ("linking", a.linking.toJson)]

end Prebuilt

namespace Replacement

/-- A replacement from its fields. -/
def reader : Reader Replacement := fun s => do
  -- Neither part has a stand-in.
  let (target, artifact, ()) ← Fields.read "struct ReplacementRecord" false
    (.required "target" TargetId.reader <| .required "artifact" Prebuilt.reader .done) s
  return ⟨target, artifact⟩

/-- A replacement as its fields. -/
def toJson (r : Replacement) : Value :=
  -- The target is written whole, though the ledger files it by name.
  .object [("target", r.target.toJson), ("artifact", r.artifact.toJson)]

end Replacement

namespace Ledger

/-- A ledger from its fields. -/
def reader : Reader Ledger := fun s => do
  -- An empty object is an empty ledger.
  let (replacements, requested, ()) ← Fields.read "struct MapperEnvironment" false
    (.optional "replacements" (Reader.sortedMap id (Reader.list Replacement.reader)) {} <|
      .optional "requested_targets" (Reader.set TargetId.reader) {} .done) s
  return ⟨replacements, requested⟩

/-- All replacements as an object with the names of their targets in order. -/
def replacementsJson (l : Ledger) : Value :=
  -- The order within a name is that of the notes.
  l.replacements.toJson id fun records => .list (records.map Replacement.toJson)

/-- The requested targets as a list in order. -/
def requestedJson (l : Ledger) : Value :=
  -- The list is in the order of identities, and not in that of the selection.
  l.requested.toJson TargetId.toJson

/-- A ledger as its fields. -/
def toJson (l : Ledger) : Value :=
  -- Both fields are written even if they are empty.
  .object [("replacements", l.replacementsJson), ("requested_targets", l.requestedJson)]

end Ledger

end BuildGraph
