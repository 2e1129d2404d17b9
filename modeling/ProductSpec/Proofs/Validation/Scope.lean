/-
  Dimensions in scope, said without the search: the innermost group of the file that has a
  dimension gives its size, and the nearest declaration says which sizes will do.
-/
import ProductSpec.Proofs.Names
import ProductSpec.Validation.Scope

namespace ProductSpec

/-- Levels with the same declarations, at which the file has the same dimensions. -/
structure ScopeLevel.Alike (l l' : ScopeLevel) : Prop where
  declared : ∀ name, l.declared? name = l'.declared? name
  present : ∀ name, l.present? name = l'.present? name

namespace Scope

/-- The innermost level where a lookup finds something. -/
inductive Nearest {α : Type} (look : ScopeLevel → Option α) : Scope → ScopeLevel → α → Prop
  | here {l : ScopeLevel} {outer : Scope} {x : α} : look l = some x → Nearest look (l :: outer) l x
  | further {l found : ScopeLevel} {outer : Scope} {x : α} : look l = none →
      Nearest look outer found x → Nearest look (l :: outer) found x

/-- The file has the dimension, and its size is accepted where it is found or else by the nearest
declaration. -/
def Meets (scope : Scope) (name : String) : Prop :=
  ∃ level actual, Nearest (·.present? name) scope level actual ∧
    ((level.declared? name).isSome = true ∨
      ∀ l d, Nearest (·.declared? name) scope l d → d.size.accepts actual.size = true)

/-- What is nearest is found at one of the levels. -/
theorem Nearest.found {α : Type} {look : ScopeLevel → Option α} {scope : Scope} {l : ScopeLevel}
    {x : α} (h : Nearest look scope l x) : l ∈ scope ∧ look l = some x := by
  induction h with
  | here found => exact ⟨List.mem_cons_self, found⟩
  | further _ _ ih => exact ⟨List.mem_cons_of_mem _ ih.1, ih.2⟩

/-- Where each of two lookups also finds something at the level that is nearest for the other, the
two levels are one. -/
theorem Nearest.level_eq {α β : Type} {look : ScopeLevel → Option α} {look' : ScopeLevel → Option β}
    {scope : Scope} {l l' : ScopeLevel} {x : α} {y : β} (h : Nearest look scope l x)
    (h' : Nearest look' scope l' y) (hit : (look l').isSome = true)
    (hit' : (look' l).isSome = true) : l = l' := by
  induction h with
  | here found =>
    cases h' with
    | here found' => rfl
    | further absent _ =>
      rw [absent] at hit'
      cases hit'
  | further absent _ ih =>
    cases h' with
    | here found' =>
      rw [absent] at hit
      cases hit
    | further _ outer => exact ih outer hit'

theorem nearest_iff {α : Type} {look : ScopeLevel → Option α} {scope : Scope} {l : ScopeLevel}
    {x : α} :
    Nearest look scope l x ↔
      scope.findSome? (fun l => (look l).map fun x => (l, x)) = some (l, x) := by
  induction scope with
  | nil => exact ⟨nofun, nofun⟩
  | cons first outer ih =>
    rw [List.findSome?_cons]
    cases found : look first with
    | some y =>
      constructor
      · rintro (here | ⟨absent, -⟩)
        · rw [found] at here
          obtain rfl := Option.some.inj here
          rfl
        · rw [found] at absent
          cases absent
      · intro h
        obtain ⟨rfl, rfl⟩ := Prod.mk.inj (Option.some.inj h)
        exact .here found
    | none =>
      refine Iff.trans ⟨?_, .further found⟩ ih
      rintro (here | ⟨-, outer⟩)
      · rw [found] at here
        cases here
      · exact outer

/-- A dimension that the innermost group has and declares is met. -/
theorem Meets.here {l : ScopeLevel} {scope : Scope} {name : String} {actual : FileDimension}
    (stored : l.present? name = some actual) (declared : (l.declared? name).isSome = true) :
    Meets (l :: scope) name :=
  ⟨l, actual, .here stored, .inl declared⟩

/-- A group without a dimension of the name leaves it as it is around it. -/
theorem Meets.further {l : ScopeLevel} {scope : Scope} {name : String}
    (absent : l.present? name = none) (undeclared : l.declared? name = none)
    (h : scope.Meets name) : Meets (l :: scope) name := by
  obtain ⟨level, actual, nearest, met⟩ := h
  refine ⟨level, actual, .further absent nearest, met.imp_right fun accepted l' d nearest' => ?_⟩
  cases nearest' with
  | here found =>
    rw [undeclared] at found
    cases found
  | further _ outer => exact accepted l' d outer

theorem nearest_declared {scope : Scope} {name : String} {l : ScopeLevel} {d : Dimension}
    (h : Nearest (·.declared? name) scope l d) : scope.declared? name = some d := by
  induction h with
  | here found => simp [declared?, found]
  | further absent _ ih => simpa [declared?, absent] using ih

theorem exists_nearest_declared {scope : Scope} {name : String} {d : Dimension}
    (h : scope.declared? name = some d) : ∃ l, Nearest (·.declared? name) scope l d := by
  induction scope with
  | nil => cases h
  | cons first outer ih =>
    cases found : first.declared? name with
    | some y =>
      obtain rfl : y = d := by simpa [declared?, found] using h
      exact ⟨first, .here found⟩
    | none =>
      obtain ⟨l, nearest⟩ := ih (by simpa [declared?, found] using h)
      exact ⟨l, .further found nearest⟩

/-- The names of the dimensions declared at any level. -/
def names (scope : Scope) : List String :=
  scope.flatMap fun l => l.declared.map Dimension.name

theorem isSome_declared? {scope : Scope} {name : String} :
    (scope.declared? name).isSome = true ↔ name ∈ scope.names := by
  unfold declared? names
  rw [List.findSome?_isSome_iff, List.mem_flatMap]
  exact exists_congr fun l => and_congr_right fun _ => isSome_find?_name

/-- The checks find no fault in a dimension if and only if it is met. -/
theorem fault?_eq_none_iff {scope : Scope} {name : String} :
    scope.fault? name = none ↔ scope.Meets name := by
  unfold fault? Meets
  cases found : scope.present? name with
  | none =>
    refine ⟨nofun, ?_⟩
    rintro ⟨level, actual, nearest, -⟩
    rw [nearest_iff] at nearest
    rw [present?, nearest] at found
    cases found
  | some hit =>
    obtain ⟨level, actual⟩ := hit
    -- The search stops at the first level, so nothing else is nearest.
    have only : ∀ l a, Nearest (·.present? name) scope l a → l = level ∧ a = actual := by
      intro l a nearest
      rw [nearest_iff] at nearest
      rw [present?, nearest] at found
      exact Prod.mk.inj (Option.some.inj found)
    have isNearest : Nearest (·.present? name) scope level actual := nearest_iff.2 found
    simp only
    split
    · next here => exact ⟨fun _ => ⟨level, actual, isNearest, .inl here⟩, fun _ => rfl⟩
    · next notHere =>
      constructor
      · intro accepted
        refine ⟨level, actual, isNearest, .inr fun l d nearest => ?_⟩
        rw [nearest_declared nearest] at accepted
        cases accepts : d.size.accepts actual.size with
        | true => rfl
        | false => simp [accepts] at accepted
      · rintro ⟨l, a, nearest, here | accepted⟩
        · exact absurd ((only l a nearest).1 ▸ here) notHere
        · obtain ⟨rfl, rfl⟩ := only l a nearest
          cases declared : scope.declared? name with
          | none => rfl
          | some d =>
            obtain ⟨l, nearest⟩ := exists_nearest_declared declared
            simp [accepted l d nearest]

section Alike

variable {scope scope' : Scope} (alike : List.Forall₂ ScopeLevel.Alike scope scope')

include alike

theorem declared?_eq (name : String) : scope.declared? name = scope'.declared? name := by
  induction alike with
  | nil => rfl
  | cons first _ ih =>
    unfold declared? at ih ⊢
    rw [List.findSome?_cons, List.findSome?_cons, first.declared name, ih]

theorem present?_rel (name : String) :
    (scope.present? name).Rel (fun p p' => p.1.Alike p'.1 ∧ p.2 = p'.2)
      (scope'.present? name) := by
  induction alike with
  | nil => exact .none
  | @cons l l' _ _ first _ ih =>
    unfold present? at ih ⊢
    rw [List.findSome?_cons, List.findSome?_cons, ← first.present name]
    cases l.present? name with
    | none => exact ih
    | some d => exact .some ⟨first, rfl⟩

/-- The faults depend on what is found by name alone. -/
theorem fault?_eq (name : String) : scope.fault? name = scope'.fault? name := by
  have found := present?_rel alike name
  unfold fault?
  rw [← declared?_eq alike name]
  generalize scope.present? name = hit at found
  generalize scope'.present? name = hit' at found
  cases found with
  | none => rfl
  | some same =>
    obtain ⟨level, size⟩ := same
    simp only [level.declared name, size]

end Alike

end Scope

end ProductSpec
