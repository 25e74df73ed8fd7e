import BuildGraph.Ledger.Json
import BuildGraph.Pass
import BuildGraph.Workspace.Json

/-! Stages, side effects and outcomes as JSON. -/

namespace BuildGraph

open Json

namespace Stage

/-- The stages by their names. -/
def choices : Choices Stage :=
  -- The order is that in which errors list the names.
  [("wiring", .wiring), ("selection", .selection), ("caching", .caching),
    ("side_effects", .sideEffects)]

/-- The name of a stage. -/
def text : Stage → String
  -- These names are spelled as identifiers, unlike those in messages.
  | wiring => "wiring"
  | selection => "selection"
  | caching => "caching"
  | sideEffects => "side_effects"

/-- A stage by its name. -/
def toJson (s : Stage) : Value :=
  -- A name and no object, as nothing belongs to it.
  .string s.text

end Stage

namespace SideEffect

/-- The words of a command from the record that holds them. -/
def commandReader : Reader (List String) := fun s => do
  -- A command without words can be read, though none is ever asked for.
  let (arguments, ()) ← Fields.read "struct CommandDescriptor" false
    (.required "arguments" (Reader.list Reader.string) .done) s
  return arguments

/-- The words of a command as the record that holds them. -/
def commandJson (arguments : List String) : Value :=
  -- The program comes first.
  .object [("arguments", .list (arguments.map .string))]

/-- The kinds of side effects by their names, each with a way to read what stands beside its name.
-/
def variants : Choices (Payload → Except Error SideEffect) := [
  -- There is one kind so far.
  ("command", fun payload => do
    let (arguments, ()) ← Fields.ofPayload "struct CommandDescriptor"
      (.required "arguments" (Content.items Content.text) .done) payload
    return .command arguments)]

/-- A side effect from its kind and what belongs to it. -/
def reader : Reader SideEffect := fun s => do
  -- The kind may stand anywhere in the object, so what is beside it is read second.
  let (read, payload) ← Reader.tagged "SideEffectDescriptor" variants s
  read payload

/-- A side effect as its kind and what belongs to it. -/
def toJson : SideEffect → Value
  -- The words stand beside the kind, not in a record of their own.
  | command arguments =>
    .object [("kind", .string "command"), ("arguments", .list (arguments.map .string))]

end SideEffect

namespace Outcome

/-- An outcome from its fields. -/
def reader : Reader Outcome := fun s => do
  -- All three parts must be given.
  let (workspace, sideEffects, ledger, ()) ← Fields.read "struct MapperOutput" false
    (.required "graph" Workspace.reader <|
      .required "side_effects" (Reader.list SideEffect.reader) <|
      .required "environment" Ledger.reader .done) s
  return ⟨workspace, sideEffects, ledger⟩

/-- An outcome as its fields. -/
def toJson (o : Outcome) : Value :=
  -- All three parts are written.
  .object [("graph", o.workspace.toJson),
    ("side_effects", .list (o.sideEffects.map SideEffect.toJson)),
    ("environment", o.ledger.toJson)]

end Outcome

end BuildGraph
