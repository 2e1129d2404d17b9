/-
  What actions come to: each way of putting actions together from others, by what those come to.
-/
import ProductSpec.Fault
import ProductSpec.File.World
import ProductSpec.Proofs.Outcome

namespace ProductSpec

namespace World

variable {α : Type} {w : World} {p : FilePath} {q : FilePlace}

theorem look_eq (placed : w.tree.place w.directory p = .ok q) (f : FilePlace → Except FileError α) :
    w.look p f = f q := by
  rw [look, placed]
  rfl

theorem attempt_eq (noFault : w.fault = none) (f : World → Except FileError α × World) :
    w.attempt f = f w := by
  rw [attempt, noFault]

theorem change_eq {f : FilePlace → Except FileError FileTree} {tree : FileTree}
    (placed : w.tree.place w.directory p = .ok q) (h : f q = .ok tree) :
    w.change p f = (.ok (), { w with tree }) := by
  rw [change, look_eq placed, h]

end World

namespace FileAction

variable {α β : Type} {w w₁ w₂ : World} {a : FileAction α}

/-- In one world an action comes to a result and leaves another world behind. -/
def Yields (a : FileAction α) (w : World) (result : Except Fault α) (w' : World) : Prop :=
  (ExceptT.run a).run w = (result, w')

/-- Every action comes to one result. -/
theorem Yields.unique {x y : Except Fault α} (h : Yields a w x w₁) (h' : Yields a w y w₂) :
    x = y ∧ w₁ = w₂ :=
  Prod.mk.inj (h.symm.trans h')

theorem yields_run (a : FileAction α) (w : World) :
    Yields a w ((ExceptT.run a).run w).1 ((ExceptT.run a).run w).2 := rfl

theorem yields_pure (x : α) (w : World) : Yields (pure x) w (.ok x) w := rfl

theorem yields_throw (e : Fault) (w : World) : Yields (throw e : FileAction α) w (.error e) w := rfl

theorem Yields.bind {f : α → FileAction β} {x : α} {y : Except Fault β} (h : Yields a w (.ok x) w₁)
    (next : Yields (f x) w₁ y w₂) : Yields (a >>= f) w y w₂ := by
  change (ExceptT.run a >>= ExceptT.bindCont f).run w = _
  rw [FileProgram.run_bind, h]
  exact next

theorem Yields.bind_error {f : α → FileAction β} {e : Fault} (h : Yields a w (.error e) w₁) :
    Yields (a >>= f) w (.error e) w₁ := by
  change (ExceptT.run a >>= ExceptT.bindCont f).run w = _
  rw [FileProgram.run_bind, h]
  rfl

theorem yields_ofProgram {p : FileProgram α} {x : α} (h : p.run w = (x, w₁)) :
    Yields (ofProgram p) w (.ok x) w₁ := by
  change (p >>= fun x => pure (Except.ok x : Except Fault α)).run w = _
  rw [FileProgram.run_bind, h]
  rfl

theorem yields_ofFile {p : FileProgram (Except FileError α)} {x : Except FileError α}
    (h : p.run w = (x, w₁)) : Yields (ofFile p) w (x.mapError Fault.file) w₁ := by
  change (p >>= fun x => pure (x.mapError Fault.file)).run w = _
  rw [FileProgram.run_bind, h]
  rfl

theorem yields_ofOption (e : Fault) (x : Option α) (w : World) :
    Yields (ofOption e x) w (x.elim (.error e) .ok) w := by
  cases x <;> rfl

/-- Nothing is undone after a success. -/
theorem Yields.onFailure {undo : FileAction Unit} {x : α} (h : Yields a w (.ok x) w₁) :
    Yields (a.onFailure undo) w (.ok x) w₁ := by
  change (ExceptT.run a >>= _).run w = _
  rw [FileProgram.run_bind, h]
  rfl

theorem Yields.onFailure_error {undo : FileAction Unit} {e : Fault} {z : Except Fault Unit}
    (h : Yields a w (.error e) w₁) (undoing : Yields undo w₁ z w₂) :
    Yields (a.onFailure undo) w (.error e) w₂ := by
  change (ExceptT.run a >>= _).run w = _
  rw [FileProgram.run_bind, h]
  change (ExceptT.run undo >>= fun _ => pure (Except.error e : Except Fault α)).run w₁ = _
  rw [FileProgram.run_bind, undoing]
  rfl

theorem Yields.finallyDo {last : FileAction Unit} {x : Except Fault α} {y : Except Fault Unit}
    (h : Yields a w x w₁) (ending : Yields last w₁ y w₂) : Yields (a.finallyDo last) w x w₂ := by
  change (ExceptT.run a >>= fun result => ExceptT.run last >>= fun _ => pure result).run w = _
  rw [FileProgram.run_bind, h, FileProgram.run_bind, ending]
  rfl

theorem Yields.tolerate {a : FileAction Unit} {x : Except Fault Unit} (h : Yields a w x w₁) :
    Yields (tolerate a) w (.ok ()) w₁ := by
  refine yields_ofProgram ?_
  change (ExceptT.run a >>= fun _ => pure ()).run w = _
  rw [FileProgram.run_bind, h]
  rfl

theorem yields_ofExcept (x : Except Fault α) (w : World) : Yields (ofExcept x) w x w := rfl

theorem Yields.inContext {doing : String} {x : Except Fault α} (h : Yields a w x w₁) :
    Yields (a.inContext doing) w (x.mapError (Fault.context doing)) w₁ := by
  change (ExceptT.run a >>= fun x => pure (x.mapError (Fault.context doing))).run w = _
  rw [FileProgram.run_bind, h]
  rfl

/-- Printing changes nothing but what has been printed. -/
theorem yields_print (text : String) (w : World) :
    Yields (print text) w (.ok ()) { w with output := w.output ++ text } := rfl

section Cases

variable {x : Except Fault α} {y : Except Fault β}

theorem Yields.of_inContext {doing : String} {x : α}
    (h : Yields (a.inContext doing) w (.ok x) w₁) : Yields a w (.ok x) w₁ := by
  have run := yields_run a w
  obtain ⟨same, rfl⟩ := h.unique run.inContext
  rw [mapError_eq_ok.1 same.symm] at run
  exact run

/-- An action that goes on with the result of another one fails with it, or goes on. -/
theorem Yields.bind_cases {f : α → FileAction β} (h : Yields (a >>= f) w y w₂) :
    (∃ e, y = .error e ∧ Yields a w (.error e) w₂) ∨
      ∃ x w₁, Yields a w (.ok x) w₁ ∧ Yields (f x) w₁ y w₂ := by
  have first := yields_run a w
  generalize ((ExceptT.run a).run w).2 = w₁ at first
  cases result : ((ExceptT.run a).run w).1 with
  | error e =>
    rw [result] at first
    obtain ⟨rfl, rfl⟩ := h.unique first.bind_error
    exact .inl ⟨e, rfl, first⟩
  | ok x =>
    rw [result] at first
    obtain ⟨rfl, rfl⟩ := h.unique (first.bind (yields_run (f x) w₁))
    exact .inr ⟨x, w₁, first, yields_run (f x) w₁⟩

/-- What comes to a value comes to one in each of its steps. -/
theorem Yields.bind_ok {f : α → FileAction β} {y : β} (h : Yields (a >>= f) w (.ok y) w₂) :
    ∃ x w₁, Yields a w (.ok x) w₁ ∧ Yields (f x) w₁ (.ok y) w₂ := by
  rcases h.bind_cases with ⟨e, failed, -⟩ | found
  · cases failed
  · exact found

theorem Yields.ofFile_cases {p : FileProgram (Except FileError α)} (h : Yields (ofFile p) w x w₁) :
    ∃ reply, p.run w = (reply, w₁) ∧ x = reply.mapError Fault.file := by
  have run : Yields (ofFile p) w ((p.run w).1.mapError Fault.file) (p.run w).2 := yields_ofFile rfl
  obtain ⟨rfl, rfl⟩ := h.unique run
  exact ⟨_, rfl, rfl⟩

theorem Yields.ofProgram_cases {p : FileProgram α} (h : Yields (ofProgram p) w x w₁) :
    ∃ reply, p.run w = (reply, w₁) ∧ x = .ok reply := by
  have run : Yields (ofProgram p) w (.ok (p.run w).1) (p.run w).2 := yields_ofProgram rfl
  obtain ⟨rfl, rfl⟩ := h.unique run
  exact ⟨_, rfl, rfl⟩

theorem Yields.ofOption_ok {e : Fault} {value : Option α} {z : α}
    (h : Yields (ofOption e value) w (.ok z) w₁) : value = some z ∧ w = w₁ := by
  obtain ⟨made, rfl⟩ := h.unique (yields_ofOption e value w)
  cases value with
  | none => cases made
  | some => exact ⟨congrArg some (Except.ok.inj made).symm, rfl⟩

/-- An action with something to undo comes to a value, or fails and undoes it. -/
theorem Yields.onFailure_cases {undo : FileAction Unit} (h : Yields (a.onFailure undo) w x w₂) :
    (∃ value, x = .ok value ∧ Yields a w (.ok value) w₂) ∨
      ∃ e w₁ z, x = .error e ∧ Yields a w (.error e) w₁ ∧ Yields undo w₁ z w₂ := by
  have first := yields_run a w
  generalize ((ExceptT.run a).run w).2 = w₁ at first
  cases result : ((ExceptT.run a).run w).1 with
  | ok value =>
    rw [result] at first
    obtain ⟨rfl, rfl⟩ := h.unique first.onFailure
    exact .inl ⟨value, rfl, first⟩
  | error e =>
    rw [result] at first
    obtain ⟨rfl, rfl⟩ := h.unique (first.onFailure_error (yields_run undo w₁))
    exact .inr ⟨e, w₁, _, rfl, first, yields_run undo w₁⟩

theorem Yields.finallyDo_cases {last : FileAction Unit} (h : Yields (a.finallyDo last) w x w₂) :
    ∃ w₁ z, Yields a w x w₁ ∧ Yields last w₁ z w₂ := by
  have first := yields_run a w
  generalize ((ExceptT.run a).run w).2 = w₁ at first
  obtain ⟨rfl, rfl⟩ := h.unique (first.finallyDo (yields_run last w₁))
  exact ⟨w₁, _, first, yields_run last w₁⟩

theorem Yields.tolerate_cases {a : FileAction Unit} {x : Except Fault Unit}
    (h : Yields (FileAction.tolerate a) w x w₁) : x = .ok () ∧ ∃ z, Yields a w z w₁ := by
  obtain ⟨rfl, rfl⟩ := h.unique (yields_run a w).tolerate
  exact ⟨rfl, _, yields_run a w⟩

end Cases

/-- In a world that it leaves as it is, an action comes to a value if a condition holds, and fails
if not. -/
def YieldsIf (a : FileAction α) (w : World) (p : Prop) (x : α) : Prop :=
  ∃ y, Yields a w y w ∧ ∀ x', y = .ok x' ↔ p ∧ x' = x

namespace YieldsIf

variable {p q : Prop} {x x' : α}

theorem yields_iff (h : YieldsIf a w p x) : Yields a w (.ok x') w ↔ p ∧ x' = x := by
  obtain ⟨y, yields, right⟩ := h
  rw [← right]
  exact ⟨fun yields' => (yields.unique yields').1, fun same => same ▸ yields⟩

theorem congr (h : YieldsIf a w p x) (same : p ↔ q) : YieldsIf a w q x := by
  obtain ⟨y, yields, right⟩ := h
  exact ⟨y, yields, fun x' => by rw [right, same]⟩

theorem ofOption {e : Fault} {y : Option α} (w : World)
    (h : ∀ x', y = some x' ↔ p ∧ x' = x) : YieldsIf (ofOption e y) w p x := by
  refine ⟨_, yields_ofOption e y w, fun x' => ?_⟩
  rw [← h]
  cases y with
  | none => exact ⟨nofun, nofun⟩
  | some => exact ⟨fun same => congrArg some (Except.ok.inj same),
      fun same => congrArg Except.ok (Option.some.inj same)⟩

/-- What comes after an action that comes to a value. -/
theorem after {f : α → FileAction β} {z : β} (h : Yields a w (.ok x) w)
    (next : YieldsIf (f x) w p z) : YieldsIf (a >>= f) w p z := by
  obtain ⟨y, yields, right⟩ := next
  exact ⟨y, h.bind yields, right⟩

theorem bind {f : α → FileAction β} {z : β} (h : YieldsIf a w p x)
    (next : YieldsIf (f x) w q z) : YieldsIf (a >>= f) w (p ∧ q) z := by
  obtain ⟨y, yields, right⟩ := h
  cases y with
  | error e =>
    refine ⟨_, yields.bind_error, fun z' => ⟨nofun, fun ⟨⟨holds, _⟩, _⟩ => ?_⟩⟩
    cases (right x).2 ⟨holds, rfl⟩
  | ok x' =>
    obtain ⟨holds, rfl⟩ := (right x').1 rfl
    exact (after yields next).congr (and_iff_right holds).symm

theorem bind_pure {f : α → β} (h : YieldsIf a w p x) :
    YieldsIf (a >>= fun x => pure (f x)) w p (f x) := by
  have value : YieldsIf (pure (f x)) w True (f x) :=
    ⟨_, yields_pure (f x) w, fun z => by rw [Except.ok.injEq, true_and, eq_comm]⟩
  exact (h.bind value).congr (.of_eq (and_true p))

end YieldsIf

end FileAction

end ProductSpec
