import Mathlib.Data.List.Forall2

/-! Results one after another, results that match, and lists whose items correspond one by one. -/

namespace BuildGraph

universe u v w

/-- A result is not an error. -/
@[simp] theorem mapError_ok {ε : Type u} {ε' : Type v} {α : Type w} (f : ε → ε') (a : α) :
    (Except.ok a : Except ε α).mapError f = .ok a :=
  -- There is no error to pass through the function.
  rfl

/-- An error is passed through. -/
@[simp] theorem mapError_error {ε : Type u} {ε' : Type v} {α : Type w} (f : ε → ε') (e : ε) :
    (Except.error e : Except ε α).mapError f = .error (f e) :=
  -- The error is all that there is.
  rfl

/-- A value is handed on to what comes after it. -/
@[simp] theorem ok_bind {ε : Type u} {α β : Type v} (a : α) (next : α → Except ε β) :
    (Except.ok a >>= next) = next a :=
  -- The first result has a value for the next.
  rfl

/-- Nothing comes after an error. -/
@[simp] theorem error_bind {ε : Type u} {α β : Type v} (e : ε) (next : α → Except ε β) :
    (Except.error e >>= next) = .error e :=
  -- The first result has no value for the next.
  rfl

/-- One result after another is a value if both are. -/
theorem bind_eq_ok_iff {ε : Type u} {α β : Type v} {x : Except ε α} {next : α → Except ε β}
    {b : β} :
    (x >>= next) = .ok b ↔ ∃ a, x = .ok a ∧ next a = .ok b := by
  -- The first result is a value or an error.
  cases x <;> simp

/-- One result after another is an error if the first is, or else if the other is. -/
theorem bind_eq_error_iff {ε : Type u} {α β : Type v} {x : Except ε α} {next : α → Except ε β}
    {e : ε} : (x >>= next) = .error e ↔ x = .error e ∨ ∃ a, x = .ok a ∧ next a = .error e := by
  -- The first result is a value or an error.
  cases x <;> simp

section Results

variable {ε ε' δ δ' α β γ γ' : Type u} {errors : ε → ε' → Prop} {values : α → β → Prop}

/-- Both results are values, or both are errors, and these correspond. -/
inductive Matching (errors : ε → ε' → Prop) (values : α → β → Prop) :
    Except ε α → Except ε' β → Prop
  -- A value never corresponds to an error.
  | ok {a : α} {b : β} (same : values a b) : Matching errors values (.ok a) (.ok b)
  | error {e : ε} {e' : ε'} (same : errors e e') : Matching errors values (.error e) (.error e')

namespace Matching

variable {x : Except ε α} {y : Except ε' β}

/-- What comes after matching results matches if it does after corresponding values. -/
theorem bind {values' : γ → γ' → Prop} {f : α → Except ε γ} {g : β → Except ε' γ'}
    (first : Matching errors values x y)
    (next : ∀ a b, values a b → Matching errors values' (f a) (g b)) :
    Matching errors values' (x >>= f) (y >>= g) := by
  -- Nothing comes after an error.
  cases first with
  | ok same => exact next _ _ same
  | error same => exact .error same

/-- Values of matching results correspond, and are what these results are. -/
theorem and_eq (first : Matching errors values x y) :
    Matching errors (fun a b => values a b ∧ x = .ok a ∧ y = .ok b) x y := by
  -- Both sides are known once they match.
  cases first with
  | ok same => exact .ok ⟨same, rfl, rfl⟩
  | error same => exact .error same

/-- Values of matching results can be passed through functions. -/
theorem map {values' : γ → γ' → Prop} {f : α → γ} {g : β → γ'}
    (first : Matching errors values x y) (next : ∀ a b, values a b → values' (f a) (g b)) :
    Matching errors values' (x.map f) (y.map g) := by
  -- An error has no value to pass through.
  cases first with
  | ok same => exact .ok (next _ _ same)
  | error same => exact .error same

/-- Errors of matching results can be passed through functions. -/
theorem mapError {errors' : δ → δ' → Prop} {f : ε → δ} {g : ε' → δ'}
    (first : Matching errors values x y) (next : ∀ e e', errors e e' → errors' (f e) (g e')) :
    Matching errors' values (x.mapError f) (y.mapError g) := by
  -- A value has no error to pass through.
  cases first with
  | ok same => exact .ok same
  | error same => exact .error (next _ _ same)

end Matching

end Results

/-- Things that correspond to others compare as these do. -/
def Agree {α : Type u} {β : Type v} (R : α → β → Prop) (cmp : α → α → Ordering)
    (cmp' : β → β → Ordering) : Prop :=
  -- Both arguments are exchanged at once, so the spellings on one side may vary.
  ∀ ⦃a a'⦄, R a a' → ∀ ⦃b b'⦄, R b b' → cmp a b = cmp' a' b'

/-- Seen from the other side, things compare alike as well. -/
theorem Agree.flip {α : Type u} {β : Type v} {R : α → β → Prop} {cmp : α → α → Ordering}
    {cmp' : β → β → Ordering} (agree : Agree R cmp cmp') :
    Agree (fun b a => R a b) cmp' cmp := by
  -- It is the same equation read backwards.
  intro b a same b' a' also
  exact (agree same also).symm

section Lists

variable {α : Type u} {β : Type v} {R : α → β → Prop} {xs : List α} {ys : List β}
  {p : α → Bool} {q : β → Bool}

/-- Of corresponding lists, what comes before the first failure of a test corresponds. -/
theorem forall₂_takeWhile (agree : ∀ a b, R a b → p a = q b) (same : List.Forall₂ R xs ys) :
    List.Forall₂ R (xs.takeWhile p) (ys.takeWhile q) := by
  -- The first items pass together; if they fail, nothing is left on either side.
  induction same with
  | nil => exact .nil
  | cons first _ ih =>
    rw [List.takeWhile_cons, List.takeWhile_cons, agree _ _ first]
    split
    · exact .cons first ih
    · exact .nil

/-- Of corresponding lists, what comes from the first failure of a test on corresponds. -/
theorem forall₂_dropWhile (agree : ∀ a b, R a b → p a = q b) (same : List.Forall₂ R xs ys) :
    List.Forall₂ R (xs.dropWhile p) (ys.dropWhile q) := by
  -- The first items pass together; if they fail, everything is left on both sides.
  induction same with
  | nil => exact .nil
  | cons first rest ih =>
    rw [List.dropWhile_cons, List.dropWhile_cons, agree _ _ first]
    split
    · exact ih
    · exact .cons first rest

/-- In corresponding lists, corresponding items are found first. -/
theorem rel_find? (agree : ∀ a b, R a b → p a = q b) (same : List.Forall₂ R xs ys) :
    Option.Rel R (xs.find? p) (ys.find? q) := by
  -- The induction is on the correspondence; the tests go alike for each pair.
  induction same with
  | nil => exact .none
  | cons first _ ih =>
    rw [List.find?_cons, List.find?_cons, agree _ _ first]
    split
    · exact .some first
    · exact ih

/-- What is found first in corresponding lists corresponds. -/
theorem rel_findSome? {γ δ : Type w} {S : γ → δ → Prop} {f : α → Option γ} {g : β → Option δ}
    (agree : ∀ a b, R a b → Option.Rel S (f a) (g b)) (same : List.Forall₂ R xs ys) :
    Option.Rel S (xs.findSome? f) (ys.findSome? g) := by
  induction same with
  | nil => exact .none
  | cons first _ ih =>
    rw [List.findSome?_cons, List.findSome?_cons]
    -- Either something is found for both first items, or for neither.
    have found := agree _ _ first
    generalize f _ = x at found ⊢
    generalize g _ = y at found ⊢
    cases found with
    | none => exact ih
    | some pair => exact .some pair

/-- Items of corresponding lists correspond and are there. -/
theorem forall₂_and_mem (same : List.Forall₂ R xs ys) :
    List.Forall₂ (fun a b => R a b ∧ a ∈ xs ∧ b ∈ ys) xs ys := by
  -- What stands at one position of both lists is a pair of the zipped list.
  obtain ⟨sizes, pairs⟩ := List.forall₂_iff_zip.mp same
  exact List.forall₂_iff_zip.mpr ⟨sizes, fun member => ⟨pairs member, List.of_mem_zip member⟩⟩

/-- Items have the same image, one by one, when the lists of their images are the same. -/
theorem forall₂_image_iff {γ : Type w} {f : α → γ} {g : β → γ} :
    List.Forall₂ (fun a b => f a = g b) xs ys ↔ xs.map f = ys.map g := by
  -- Lists that correspond by equality are equal.
  rw [← List.forall₂_map_right_iff (R := fun a c => f a = c), ← List.forall₂_map_left_iff,
    List.forall₂_eq_eq_eq]

/-- Corresponding lists both have an item that passes a test, or neither has. -/
theorem any_eq_of_forall₂ (agree : ∀ a b, R a b → p a = q b) (same : List.Forall₂ R xs ys) :
    xs.any p = ys.any q := by
  -- The induction is on the correspondence; the tests go alike for each pair.
  induction same with
  | nil => rfl
  | cons first _ ih => rw [List.any_cons, List.any_cons, agree _ _ first, ih]

/-- Of corresponding lists, the items that pass a test correspond. -/
theorem forall₂_filter (agree : ∀ a b, R a b → p a = q b) (same : List.Forall₂ R xs ys) :
    List.Forall₂ R (xs.filter p) (ys.filter q) :=
  -- The tests go alike for each pair, so that both items stay or neither does.
  List.rel_filter (fun _ _ pair => iff_of_eq (congrArg (· = true) (agree _ _ pair))) same

end Lists

section Options

variable {α β : Type u} {γ δ : Type v} {R : α → β → Prop} {S : γ → δ → Prop} {x : Option α}
  {y : Option β}

/-- Optional things that correspond can be passed through functions. -/
theorem rel_optionMap {f : α → γ} {g : β → δ} (same : Option.Rel R x y)
    (step : ∀ a b, R a b → S (f a) (g b)) : Option.Rel S (x.map f) (y.map g) := by
  -- Nothing corresponds to nothing only.
  cases same with
  | none => exact .none
  | some pair => exact .some (step _ _ pair)

/-- What is looked up for optional things that correspond does so if it does for what is there. -/
theorem rel_optionBind {f : α → Option γ} {g : β → Option δ} (same : Option.Rel R x y)
    (step : ∀ a b, R a b → Option.Rel S (f a) (g b)) : Option.Rel S (x.bind f) (y.bind g) := by
  -- Nothing is looked up for nothing.
  cases same with
  | none => exact .none
  | some pair => exact step _ _ pair

/-- Optional things that are there correspond, and are what is there. -/
theorem rel_and_eq (same : Option.Rel R x y) :
    Option.Rel (fun a b => R a b ∧ x = some a ∧ y = some b) x y := by
  -- Both sides are known once they correspond.
  cases same with
  | none => exact .none
  | some pair => exact .some ⟨pair, rfl, rfl⟩

/-- Optional things that correspond are there together. -/
theorem isSome_eq_of_rel (same : Option.Rel R x y) : x.isSome = y.isSome := by
  -- Nothing corresponds to nothing only.
  cases same <;> rfl

/-- What is there on the left corresponds to something on the right. -/
theorem exists_right_of_rel {a : α} (same : Option.Rel R (some a) y) :
    ∃ b, y = some b ∧ R a b := by
  -- Nothing does not correspond to something.
  cases same with
  | some pair => exact ⟨_, rfl, pair⟩

/-- Something on the left corresponds to what is there on the right. -/
theorem exists_left_of_rel {b : β} (same : Option.Rel R x (some b)) :
    ∃ a, x = some a ∧ R a b := by
  -- Nothing does not correspond to something.
  cases same with
  | some pair => exact ⟨_, rfl, pair⟩

end Options

end BuildGraph
