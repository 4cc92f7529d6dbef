/-!
# Lists worked off by partial functions

A reader of a list, or a loop over one, has a result if every single step has one.
-/

namespace XoChip

variable {α β : Type}

/-- A list that is worked off element by element, each time with a result, has a result. -/
theorem mapM_eq_some {f : α → Option β} {g : α → β} {xs : List α}
    (h : ∀ x ∈ xs, f x = some (g x)) : xs.mapM f = some (xs.map g) := by
  induction xs with
  | nil => rfl
  | cons x xs ih =>
    rw [List.mapM_cons, h x (List.mem_cons_self ..),
      ih fun y hy => h y (List.mem_cons_of_mem _ hy)]
    rfl

/-- A fold whose steps all have a result has one, as long as an invariant of the steps holds. -/
theorem foldlM_eq_some {f : β → α → Option β} {g : β → α → β} (P : β → Prop)
    {xs : List α} (h : ∀ b, P b → ∀ x ∈ xs, f b x = some (g b x) ∧ P (g b x)) {b : β} (hb : P b) :
    xs.foldlM f b = some (xs.foldl g b) := by
  induction xs generalizing b with
  | nil => rfl
  | cons x xs ih =>
    obtain ⟨step, next⟩ := h b hb x (List.mem_cons_self ..)
    rw [List.foldlM_cons, step, List.foldl_cons]
    exact ih (fun b hb y hy => h b hb y (List.mem_cons_of_mem _ hy)) next

end XoChip
