/-
  Actions that succeed with a value or fail with an error: what a success says about the parts, and
  which of several errors is the one that is reported.
-/
import Mathlib.Data.List.Forall2

namespace ProductSpec

section Related

variable {α β : Type} {R : α → β → Prop} {xs : List α} {ys : List β}

theorem mem_of_forall₂ (h : List.Forall₂ R xs ys) {x : α} (mem : x ∈ xs) : ∃ y ∈ ys, R x y := by
  induction h with
  | nil => cases mem
  | cons first _ ih =>
    rcases List.mem_cons.1 mem with rfl | mem
    · exact ⟨_, List.mem_cons_self, first⟩
    · obtain ⟨y, isIn, related⟩ := ih mem
      exact ⟨y, List.mem_cons_of_mem _ isIn, related⟩

theorem exists_forall₂ (h : ∀ x ∈ xs, ∃ y, R x y) : ∃ ys, List.Forall₂ R xs ys := by
  induction xs with
  | nil => exact ⟨[], .nil⟩
  | cons x rest ih =>
    obtain ⟨first, others⟩ := List.forall_mem_cons.1 h
    obtain ⟨y, related⟩ := first
    obtain ⟨ys, all⟩ := ih others
    exact ⟨y :: ys, .cons related all⟩

end Related

section Success

variable {ε α β : Type}

theorem bind_eq_ok {c : Except ε α} {f : α → Except ε β} {y : β} :
    (c >>= f) = .ok y ↔ ∃ x, c = .ok x ∧ f x = .ok y := by
  cases c with
  | ok x => exact ⟨fun h => ⟨x, rfl, h⟩, fun ⟨_, found, h⟩ => Except.ok.inj found ▸ h⟩
  | error e => exact ⟨nofun, nofun⟩

theorem map_eq_ok {c : Except ε α} {f : α → β} {y : β} :
    c.map f = .ok y ↔ ∃ x, c = .ok x ∧ f x = y := by
  cases c with
  | ok x => exact ⟨fun h => ⟨x, rfl, Except.ok.inj h⟩, fun ⟨_, found, h⟩ =>
      congrArg Except.ok (Except.ok.inj found ▸ h)⟩
  | error e => exact ⟨nofun, nofun⟩

theorem mapError_eq_ok {ε' : Type} {c : Except ε α} {f : ε → ε'} {x : α} :
    c.mapError f = .ok x ↔ c = .ok x := by
  cases c with
  | ok x' => exact ⟨fun h => congrArg Except.ok (Except.ok.inj h), fun h =>
      congrArg Except.ok (Except.ok.inj h)⟩
  | error e => exact ⟨nofun, nofun⟩

theorem toOption_eq_some {c : Except ε α} {x : α} : c.toOption = some x ↔ c = .ok x := by
  cases c with
  | ok x' => exact ⟨fun h => congrArg Except.ok (Option.some.inj h), fun h =>
      congrArg some (Except.ok.inj h)⟩
  | error e => exact ⟨nofun, nofun⟩

theorem mapM_eq_ok {f : α → Except ε β} {items : List α} {results : List β} :
    items.mapM f = .ok results ↔ List.Forall₂ (fun x y => f x = .ok y) items results := by
  induction items generalizing results with
  | nil =>
    rw [List.mapM_nil, List.forall₂_nil_left_iff]
    exact ⟨fun h => (Except.ok.inj h).symm, fun h => congrArg Except.ok h.symm⟩
  | cons x rest ih =>
    rw [List.mapM_cons, bind_eq_ok, List.forall₂_cons_left_iff]
    constructor
    · rintro ⟨y, first, h⟩
      obtain ⟨ys, others, made⟩ := bind_eq_ok.1 h
      exact ⟨y, ys, first, ih.1 others, (Except.ok.inj made).symm⟩
    · rintro ⟨y, ys, first, others, rfl⟩
      exact ⟨y, first, bind_eq_ok.2 ⟨ys, ih.2 others, rfl⟩⟩

/-- Every result of a run over a list comes from an item. -/
theorem exists_of_mem_mapM {f : α → Except ε β} {items : List α} {results : List β}
    (h : items.mapM f = .ok results) {y : β} (mem : y ∈ results) : ∃ x ∈ items, f x = .ok y :=
  mem_of_forall₂ (mapM_eq_ok.1 h).flip mem

/-- What each step keeps a whole run keeps. -/
theorem foldlM_invariant {f : β → α → Except ε β} (Keeps : β → Prop)
    (step : ∀ b x b', Keeps b → f b x = .ok b' → Keeps b') {items : List α} {b b' : β}
    (start : Keeps b) (h : items.foldlM f b = .ok b') : Keeps b' := by
  induction items generalizing b with
  | nil => exact Except.ok.inj h ▸ start
  | cons x rest ih =>
    rw [List.foldlM_cons] at h
    obtain ⟨next, first, others⟩ := bind_eq_ok.1 h
    exact ih (step b x next start first) others

/-- What each item shares with its result the lists share. -/
theorem map_eq_of_mapM {γ : Type} {f : α → Except ε β} {items : List α} {results : List β}
    {key : α → γ} {key' : β → γ} (h : items.mapM f = .ok results)
    (same : ∀ x y, f x = .ok y → key' y = key x) : results.map key' = items.map key := by
  have each := mapM_eq_ok.1 h
  clear h
  induction each with
  | nil => rfl
  | cons first _ ih => rw [List.map_cons, List.map_cons, same _ _ first, ih]

end Success

/-- An action fails with the first of some errors, and only if there is one. -/
def Reports {ε α : Type} (c : Except ε α) (errors : List ε) : Prop :=
  match c with
  | .ok _ => errors = []
  | .error e => errors.head? = some e

namespace Reports

variable {ε α β : Type} {c : Except ε α} {errors others : List ε}

/-- What comes second matters only if the first has succeeded. -/
theorem bind {f : α → Except ε β} (h : Reports c errors)
    (next : ∀ x, c = .ok x → Reports (f x) others) : Reports (c >>= f) (errors ++ others) := by
  cases c with
  | ok x =>
    have empty : errors = [] := h
    rw [empty]
    exact next x rfl
  | error e =>
    obtain ⟨rest, rfl⟩ := List.head?_eq_some_iff.1 h
    rfl

theorem map (f : α → β) (h : Reports c errors) : Reports (c.map f) errors := by
  cases c <;> exact h

/-- What is made of the result reports nothing more. -/
theorem bind_pure (f : α → β) (h : Reports c errors) :
    Reports (c >>= fun x => pure (f x)) errors := by
  cases c <;> exact h

/-- After a success that is known. -/
theorem after {f : α → Except ε β} {x : α} (known : c = .ok x) (next : Reports (f x) errors) :
    Reports (c >>= f) errors := by
  rw [known]
  exact next

theorem mapM_of_mem {f : β → Except ε α} {errorsOf : β → List ε} {items : List β}
    (each : ∀ x ∈ items, Reports (f x) (errorsOf x)) :
    Reports (items.mapM f) (items.flatMap errorsOf) := by
  induction items with
  | nil => rfl
  | cons x rest ih =>
    obtain ⟨first, others⟩ := List.forall_mem_cons.1 each
    rw [List.mapM_cons, List.flatMap_cons]
    exact first.bind fun y _ => (ih others).bind_pure (y :: ·)

theorem mapM {f : β → Except ε α} {errorsOf : β → List ε} (each : ∀ x, Reports (f x) (errorsOf x))
    (items : List β) : Reports (items.mapM f) (items.flatMap errorsOf) :=
  mapM_of_mem fun x _ => each x

theorem iff (h : Reports c errors) :
    ((∃ x, c = .ok x) ↔ errors = []) ∧ ∀ e, c = .error e ↔ errors.head? = some e := by
  cases c with
  | ok x =>
    have empty : errors = [] := h
    simp [empty]
  | error first =>
    have head : errors.head? = some first := h
    refine ⟨⟨nofun, fun empty => ?_⟩, fun e => ?_⟩
    · rw [empty] at head
      cases head
    · rw [head, Except.error.injEq, Option.some.injEq]

end Reports

end ProductSpec
