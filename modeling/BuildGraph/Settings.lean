import BuildGraph.Ledger.Json
import BuildGraph.Pass.Standard
import BuildGraph.Pipeline

/-! Settings choose what a run is about, and make the pipeline that does it. They are read from
JSON. -/

namespace BuildGraph

open Json

/-- What one run is about. -/
structure Settings where
  /-- The test plan to build, unless targets are included by name. -/
  testPlan : Option String := none
  included : SortedSet String := {}
  excluded : SortedSet String := {}
  artifacts : ArtifactTable := {}
deriving DecidableEq, BEq, Inhabited, Repr

namespace Settings

/-- The settings with further wishes: a test plan takes the place of another, and names are added.
-/
def mergedWith (s : Settings) (testPlan : Option String) (included excluded : List String) :
    Settings :=
  -- The two are unequal on purpose: there can be one plan only, but any number of names.
  { s with
    testPlan := testPlan <|> s.testPlan
    included := s.included.insertAll included
    excluded := s.excluded.insertAll excluded }

/-- The selection that settings make. -/
def selection (s : Settings) : Selection :=
  -- The artefacts have no say in what is selected.
  ⟨s.testPlan, s.included, s.excluded⟩

/-- The passes of a run: wiring, selection, substitution and scheduling. -/
def passes (s : Settings) (probe : Probe) : List StandardPass :=
  -- The probe is known to the last pass only.
  [.wiring, .focus s.selection, .caching s.artifacts, .scheduling probe]

/-- The pipeline of a run. -/
def pipeline (s : Settings) (probe : Probe) : Pipeline :=
  -- The four stages stand in order, so nothing has to be checked.
  ⟨(s.passes probe).map StandardPass.toPass, rfl⟩

/-- Settings from their fields, all of which may be left out, and no others of which are known. -/
def reader : Reader Settings :=
  -- A field that is not known is an error, so a misspelled one does not go unnoticed.
  fun s => do
  let (testPlan, included, excluded, artifacts, ()) ← Fields.read "struct PipelineConfig" true
    (.optional "test_plan" (Reader.option Reader.string) none <|
      .optional "included_targets" (Reader.set Reader.string) {} <|
      .optional "excluded_targets" (Reader.set Reader.string) {} <|
      .optional "cached_artifacts" (Reader.sortedMap id Prebuilt.reader) {} .done) s
  return ⟨testPlan, included, excluded, artifacts⟩

/-- Settings as their fields. -/
def toJson (s : Settings) : Value :=
  -- All fields are written, those with their defaults as well.
  .object [("test_plan", .ofOption s.testPlan), ("included_targets", s.included.toJson .string),
    ("excluded_targets", s.excluded.toJson .string),
    ("cached_artifacts", s.artifacts.toJson id Prebuilt.toJson)]

end Settings

end BuildGraph
