import Mathlib

/-!
# Related lookups

Two partial maps are related key by key when at every key both are undefined
or both hold related values.
-/

namespace Hexroute.Lib

universe u v w

variable {α : Type u} {β : Type v} {γ : Type w}

theorem optionRel_map_left
    {relation : β → γ → Prop} {change : α → β} {left : Option α}
    {right : Option γ} :
    Option.Rel relation (left.map change) right ↔
      Option.Rel (fun value other => relation (change value) other) left
        right := by
  cases left <;> cases right <;> constructor <;> intro related <;>
    cases related <;> constructor <;> assumption

theorem optionRel_mono
    {first second : α → β → Prop} {left : Option α} {right : Option β}
    (implies :
      ∀ value ∈ left, ∀ other ∈ right, first value other →
        second value other)
    (related : Option.Rel first left right) :
    Option.Rel second left right := by
  cases related with
  | none =>
      exact Option.Rel.none
  | some holds =>
      exact Option.Rel.some (implies _ rfl _ rfl holds)

theorem optionRel_swap
    {relation : α → β → Prop} {left : Option α} {right : Option β}
    (related : Option.Rel relation left right) :
    Option.Rel (fun other value => relation value other) right left := by
  cases related with
  | none =>
      exact Option.Rel.none
  | some holds =>
      exact Option.Rel.some holds

theorem optionRel_trans
    {δ : Type w} {first : α → β → Prop} {second : β → δ → Prop}
    {composed : α → δ → Prop}
    (compose :
      ∀ value middle other, first value middle → second middle other →
        composed value other)
    {left : Option α} {middle : Option β} {right : Option δ}
    (before : Option.Rel first left middle)
    (after : Option.Rel second middle right) :
    Option.Rel composed left right := by
  cases before with
  | none =>
      cases after
      exact Option.Rel.none
  | some holds =>
      cases after with
      | some follows =>
          exact Option.Rel.some (compose _ _ _ holds follows)

/-- A defined value on one side has a related one on the other. -/
theorem exists_of_optionRel
    {relation : α → β → Prop} {left : Option α} {right : Option β}
    {other : β} (related : Option.Rel relation left right)
    (defined : right = some other) :
    ∃ value, left = some value ∧ relation value other := by
  subst defined
  cases related with
  | some holds =>
      exact ⟨_, rfl, holds⟩

end Hexroute.Lib
