import BuildGraph.Target.Json
import BuildGraph.Workspace

/-! Workspaces, projects and test plans as JSON; dependencies are a list with an entry for each
node that has some. -/

namespace BuildGraph

open Json

/-- The origins of projects by their names. -/
def Origin.choices : Choices Origin :=
  -- The order is that in which errors list the names.
  [("local", .local), ("external", .external)]

/-- The name of an origin. -/
def Origin.text : Origin → String
  -- Each name is the one under which the choice finds the origin again.
  | .local => "local"
  | .external => "external"

namespace TestPlan

/-- A test plan from its fields. -/
def reader : Reader TestPlan := fun s => do
  -- A plan may be without targets.
  let (name, targets, ()) ← Fields.read "struct TestPlan" false
    (.required "name" Reader.string <| .optional "targets" (Reader.list TargetId.reader) [] .done) s
  return ⟨name, targets⟩

/-- A test plan as its fields. -/
def toJson (p : TestPlan) : Value :=
  -- The targets stay in their order, and may repeat.
  .object [("name", .string p.name), ("targets", .list (p.targets.map TargetId.toJson))]

end TestPlan

namespace Project

/-- A project from its fields. -/
def reader : Reader Project := fun s => do
  -- A project must say where it is and what it is called, and nothing else.
  let (path, name, origin, targets, testPlans, ()) ← Fields.read "struct Project" false
    (.required "path" Reader.path <| .required "name" Reader.string <|
      .optional "kind" (Reader.choice Origin.choices) .local <|
      .optional "targets" (Reader.declaredMap Target.reader) {} <|
      .optional "test_plans" (Reader.list TestPlan.reader) [] .done) s
  return ⟨path, name, origin, targets, testPlans⟩

/-- A project as its fields. -/
def toJson (p : Project) : Value :=
  -- The origin is written even where it is the default.
  .object [("path", p.path.toJson), ("name", .string p.name), ("kind", .string p.origin.text),
    ("targets", p.targets.toJson Target.toJson),
    ("test_plans", .list (p.testPlans.map TestPlan.toJson))]

end Project

namespace Dependencies

/-- The relation given by a list of entries; entries for equal nodes add up. -/
def ofEntries (entries : List (Dependency × List Dependency)) : Dependencies :=
  -- The first spelling of a node stays.
  entries.foldl (fun d e => d.add e.1 e.2) {}

/-- An entry from a node and the nodes it depends on. -/
def entryReader : Reader (Dependency × List Dependency) := fun s => do
  -- A field that is not known is an error here, unlike in other records.
  let (source, nodes, ()) ← Fields.read "struct Edge" true
    (.required "from" Dependency.reader <| .optional "to" (Reader.set Dependency.reader) {} .done) s
  return (source, nodes.toList)

/-- The relation from a list of entries. -/
def reader : Reader Dependencies := fun s =>
  -- The relation is a list in the text, since its keys are no texts.
  (Reader.list entryReader s).map ofEntries

/-- The relation as a list of entries in the order of their nodes. -/
def toJson (d : Dependencies) : Value :=
  -- Entries without nodes are written, too, so no key is lost.
  .list (d.entries.map fun e =>
    .object [("from", e.1.toJson), ("to", e.2.toJson Dependency.toJson)])

end Dependencies

namespace Workspace

/-- A workspace from its fields. -/
def reader : Reader Workspace := fun s => do
  -- An empty object is an empty workspace.
  let (projects, dependencies, ()) ← Fields.read "struct Graph" false
    (.optional "projects" (Reader.sortedMap Path.mk Project.reader) {} <|
      .optional "dependencies" Dependencies.reader {} .done) s
  return ⟨projects, dependencies⟩

/-- A workspace as its fields. -/
def toJson (w : Workspace) : Value :=
  -- Projects are keyed by their paths, which they also carry.
  .object [("projects", w.projects.toJson Path.text Project.toJson),
    ("dependencies", w.dependencies.toJson)]

end Workspace

end BuildGraph
