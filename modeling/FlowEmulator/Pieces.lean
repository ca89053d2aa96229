import Mathlib.Data.List.TakeWhile
import Mathlib.Data.List.Infix

/-!
Lists that are cut at a separator, or cut off at their end. A separator after a
front that has none is where the list is cut first.
-/
namespace FlowEmulator.Pieces
variable {α : Type} [DecidableEq α]

/-- What comes before the first separator. -/
def before (sep : α) (list : List α) : List α := list.takeWhile (· ≠ sep)

/-- The list without an end that it may have. -/
def trimSuffix (suffix list : List α) : List α :=
  if suffix.isSuffixOf list then list.take (list.length - suffix.length) else list

section
variable {sep : α} {list : List α}

theorem before_cut (front rest : List α) : before sep (front ++ sep :: rest) = before sep front := by
  unfold before
  induction front with
  | nil => simp
  | cons a later ih => rw [List.cons_append,List.takeWhile_cons,List.takeWhile_cons,ih]

theorem before_eq_self : before sep list = list ↔ sep ∉ list := by
  unfold before
  rw [List.takeWhile_eq_self_iff]
  constructor
  · intro all member
    simpa using all sep member
  · intro absent a member
    exact decide_eq_true fun same => absent (same ▸ member)

theorem notMem_before (sep : α) (list : List α) : sep ∉ before sep list := by
  intro member
  simpa using List.mem_takeWhile_imp member

theorem trimSuffix_append (suffix list : List α) : trimSuffix suffix (list ++ suffix) = list := by
  unfold trimSuffix
  rw [if_pos (List.isSuffixOf_iff_suffix.mpr (List.suffix_append _ _))]
  simp

/-- An end with a separator is not taken from a list without one. -/
theorem trimSuffix_free {suffix : List α} (has : sep ∈ suffix) (absent : sep ∉ list) : trimSuffix suffix list = list := by
  unfold trimSuffix
  rw [if_neg]
  exact fun suffixed => absent ((List.isSuffixOf_iff_suffix.mp suffixed).subset has)

end
end FlowEmulator.Pieces
