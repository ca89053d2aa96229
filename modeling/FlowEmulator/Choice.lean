import Mathlib.Data.List.MinMax

/-!
Taking the first of some items in descending order of a rank, where the order of
items of equal rank is left open.
-/
namespace FlowEmulator

/-- A way to take some item of greatest rank, which one among several being left open. -/
structure TopChoice {α : Type} (rank : α → Nat) where
  pick : List α → Option α
  pick_none : ∀ items, pick items = none → items = []
  pick_mem : ∀ items item, pick items = some item → item ∈ items
  pick_top : ∀ items item, pick items = some item → ∀ other ∈ items, rank other ≤ rank item

namespace TopChoice
variable {α : Type} {rank : α → Nat}

/-- The item of greatest rank that comes first. -/
def earliest (rank : α → Nat) : TopChoice rank where
  pick items := items.argmax rank
  pick_none _ none := List.argmax_eq_none.mp none
  pick_mem _ _ found := List.argmax_mem found
  pick_top _ _ found _ member := List.le_of_mem_argmax member found

/-- Take one item where it is of greatest rank, and otherwise the first that is. -/
def preferring [DecidableEq α] (rank : α → Nat) (item : α) : TopChoice rank where
  pick items := if item ∈ items ∧ ∀ other ∈ items, rank other ≤ rank item then some item else items.argmax rank
  pick_none items none := by
    split at none
    · cases none
    · exact List.argmax_eq_none.mp none
  pick_mem items top found := by
    split at found
    · next first => cases found; exact first.1
    · exact List.argmax_mem found
  pick_top items top found other member := by
    split at found
    · next first => cases found; exact first.2 other member
    · exact List.le_of_mem_argmax member found

theorem pick_preferring [DecidableEq α] {items : List α} {item : α} (member : item ∈ items)
    (top : ∀ other ∈ items, rank other ≤ rank item) : (preferring rank item).pick items = some item :=
  if_pos ⟨member,top⟩

theorem pick_nil (choice : TopChoice rank) : choice.pick [] = none := by
  cases found : choice.pick [] with
  | none => rfl
  | some item => exact absurd (choice.pick_mem [] item found) List.not_mem_nil

/-- Something is taken from a list with a member. -/
theorem pick_some (choice : TopChoice rank) {items : List α} {item : α} (member : item ∈ items) :
    ∃ top, choice.pick items = some top ∧ top ∈ items ∧ rank item ≤ rank top := by
  cases found : choice.pick items with
  | none => rw [choice.pick_none items found] at member; cases member
  | some top => exact ⟨top,rfl,choice.pick_mem items top found,choice.pick_top items top found item member⟩

end TopChoice
end FlowEmulator
