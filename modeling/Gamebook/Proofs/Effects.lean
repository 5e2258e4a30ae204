import Gamebook.Effects

namespace Gamebook

theorem foldl_keeps {α : Type u} {β : Type v} {γ : Type w} (view : β → γ) (step : β → α → β)
    (h : ∀ b a, view (step b a) = view b) (xs : List α) (b : β) :
    view (xs.foldl step b) = view b := by
  induction xs generalizing b with
  | nil => rfl
  | cons x xs ih => exact (ih _).trans (h b x)

variable {γ : Type u} (view : Progress → γ)

theorem Progress.unlock_keeps (ha : ∀ p ids, view { p with achievements := ids } = view p)
    (p : Progress) (id : String) : view (p.unlock id).2 = view p := by
  unfold Progress.unlock
  split
  · rfl
  · exact ha p _

theorem Effects.values_keep (hv : ∀ p values, view { p with values } = view p) (e : Effects)
    (p : Progress) :
    view (applyModifications e.modifications (applyAssignments e.assignments p)) = view p := by
  have hset := foldl_keeps (α := String × Value) view
    (fun p e => p.setVariable e.1 e.2) (fun p _ => hv p _)
  have hmodify := foldl_keeps (α := String × Modification) view
    (fun p e => p.setVariable e.1 (e.2.apply (p.valueOf? e.1))) (fun p _ => hv p _)
  exact (hmodify _ _).trans (hset _ _)

/-- Effects change variables, items and achievements and nothing else. -/
theorem Effects.apply_keeps (hv : ∀ p values, view { p with values } = view p)
    (hi : ∀ p items, view { p with inventory := items } = view p)
    (ha : ∀ p ids, view { p with achievements := ids } = view p) (e : Effects) (p : Progress) :
    view (e.apply p) = view p := by
  have hunlock := foldl_keeps view (fun p id => (p.unlock id).2) (Progress.unlock_keeps view ha)
  calc view (e.apply p)
      = view (applyModifications e.modifications (applyAssignments e.assignments p)) :=
        (hunlock _ _).trans (hi _ _)
    _ = view p := Effects.values_keep view hv e p

/-- A cost changes variables and items and nothing else. -/
theorem Cost.apply_keeps (hv : ∀ p values, view { p with values } = view p)
    (hi : ∀ p items, view { p with inventory := items } = view p) (c : Cost) (p : Progress) :
    view (c.apply p) = view p := by
  have hpay := foldl_keeps (α := String × Float) view
    (fun p e => p.setVariable e.1 (.number (Value.amount (p.valueOf? e.1) - e.2)))
    (fun p _ => hv p _)
  have hspend := foldl_keeps (α := String) view
    (fun p item => (p.removeFirst item).2) (fun p _ => hi p _)
  exact (hspend _ _).trans (hpay _ _)

@[simp] theorem Effects.apply_node (e : Effects) (p : Progress) : (e.apply p).node = p.node :=
  Effects.apply_keeps Progress.node (fun _ _ => rfl) (fun _ _ => rfl) (fun _ _ => rfl) e p

@[simp] theorem Effects.apply_history (e : Effects) (p : Progress) :
    (e.apply p).history = p.history :=
  Effects.apply_keeps Progress.history (fun _ _ => rfl) (fun _ _ => rfl) (fun _ _ => rfl) e p

@[simp] theorem Cost.apply_history (c : Cost) (p : Progress) :
    (c.apply p).history = p.history :=
  Cost.apply_keeps Progress.history (fun _ _ => rfl) (fun _ _ => rfl) c p

@[simp] theorem Cost.apply_node (c : Cost) (p : Progress) : (c.apply p).node = p.node :=
  Cost.apply_keeps Progress.node (fun _ _ => rfl) (fun _ _ => rfl) c p

@[simp] theorem Cost.apply_achievements (c : Cost) (p : Progress) :
    (c.apply p).achievements = p.achievements :=
  Cost.apply_keeps Progress.achievements (fun _ _ => rfl) (fun _ _ => rfl) c p

end Gamebook
