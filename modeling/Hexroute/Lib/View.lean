import Mathlib

/-!
# A fold seen through a view

When a view of the state changes only at the items that touch it, and changes
there in a way the view itself determines, the view of a whole fold is the
fold of the view over the touching items.
-/

namespace Hexroute.Lib

universe u v w

variable {σ : Type u} {α : Type v} {β : Type w}

theorem foldl_view
    {step : σ → α → σ} (view : σ → β) {touches : α → Bool}
    {viewed : β → α → β} {items : List α}
    (touched :
      ∀ state, ∀ item ∈ items, touches item = true →
        view (step state item) = viewed (view state) item)
    (frame :
      ∀ state, ∀ item ∈ items, touches item = false →
        view (step state item) = view state)
    (state : σ) :
    view (items.foldl step state) =
      (items.filter touches).foldl viewed (view state) := by
  induction items generalizing state with
  | nil =>
      rfl
  | cons item rest inductionHypothesis =>
      rw [List.foldl_cons,
        inductionHypothesis
          (fun later other member => touched later other (by simp [member]))
          (fun later other member => frame later other (by simp [member]))]
      cases touching : touches item with
      | true =>
          rw [List.filter_cons_of_pos touching, List.foldl_cons,
            touched state item (by simp) touching]
      | false =>
          rw [List.filter_cons_of_neg (by simp [touching]),
            frame state item (by simp) touching]

end Hexroute.Lib
