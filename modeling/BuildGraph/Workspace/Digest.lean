import BuildGraph.Workspace.OwnedTarget

/-! What is read of a target and of its identity where they are hashed. -/

namespace BuildGraph

/-- A way to hash numbers and texts one after another. -/
structure Hasher (σ : Type) where
  -- The state is left open, so whatever is proved holds of every hash there is.
  number : σ → Nat → σ
  text : σ → String → σ

variable {σ : Type}

/-- A step is hashed as its kind, and the name of a named step behind it. -/
def Component.digest (h : Hasher σ) (state : σ) (c : Component) : σ :=
  -- The kind is hashed even where there is no name, so that a step counts.
  match c with
  | named name => h.text (h.number state c.rank) name
  | _ => h.number state c.rank

/-- A path is hashed by its steps, from left to right. -/
def Path.digest (h : Hasher σ) (state : σ) (p : Path) : σ :=
  -- Only the steps are hashed, so spellings of one path have one digest.
  p.components.foldl (Component.digest h) state

/-- An identity is hashed as its path, and its name behind it. -/
def TargetId.digest (h : Hasher σ) (state : σ) (id : TargetId) : σ :=
  -- Equality compares the same two parts.
  h.text (id.path.digest h state) id.name

/-- A target is hashed as its project's path, and its own name behind it. -/
def OwnedTarget.digest (h : Hasher σ) (state : σ) (t : OwnedTarget) : σ :=
  -- No more of the target is hashed than its identity, which is all that equality compares.
  h.text (t.path.digest h state) t.name

end BuildGraph
