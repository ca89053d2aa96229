import FlowEmulator.Fallible

/-!
Two computations side by side, on states of different types. `Lockstep` says that
from related states they answer the same and leave related states; there is one
rule for each way of composing computations.
-/
namespace FlowEmulator.Fallible
variable {ε σ τ α β : Type}

/-- From states related by `R` the computations answer the same and leave states related by `Q`. -/
def Lockstep (R Q : σ → τ → Prop) (x : Fallible ε σ α) (y : Fallible ε τ α) : Prop :=
  ∀ s t, R s t → (x s).1 = (y t).1 ∧ Q (x s).2 (y t).2

section
variable {R Q : σ → τ → Prop}

theorem lockstep_pure (a : α) : Lockstep R R (pure a : Fallible ε σ α) (pure a) := fun _ _ related => ⟨rfl,related⟩

theorem lockstep_fail (e : ε) : Lockstep R R (fail e : Fallible ε σ α) (fail e) := fun _ _ related => ⟨rfl,related⟩

theorem lockstep_view {f : σ → α} {g : τ → α} (same : ∀ s t, R s t → f s = g t) :
    Lockstep R R (view f : Fallible ε σ α) (view g) :=
  fun s t related => ⟨congrArg Except.ok (same s t related),related⟩

theorem lockstep_update {f : σ → σ} {g : τ → τ} (leads : ∀ s t, R s t → Q (f s) (g t)) :
    Lockstep R Q (update f : Fallible ε σ Unit) (update g) := fun s t related => ⟨rfl,leads s t related⟩

theorem lockstep_mono {S : σ → τ → Prop} {x : Fallible ε σ α} {y : Fallible ε τ α} (lockstep : Lockstep R Q x y)
    (weaker : ∀ s t, Q s t → S s t) : Lockstep R S x y :=
  fun s t related => ⟨(lockstep s t related).1,weaker _ _ (lockstep s t related).2⟩

/-- Both fail with one error, or both succeed with one value. -/
theorem lockstep_outcome {x : Fallible ε σ α} {y : Fallible ε τ α} (lockstep : Lockstep R Q x y) {s : σ} {t : τ}
    (related : R s t) : (∃ e after beside, x s = (.error e,after) ∧ y t = (.error e,beside) ∧ Q after beside) ∨
      ∃ a after beside, x s = (.ok a,after) ∧ y t = (.ok a,beside) ∧ Q after beside := by
  obtain ⟨answers,leads⟩ := lockstep s t related
  generalize x s = left at answers leads ⊢
  generalize y t = right at answers leads ⊢
  obtain ⟨answer,after⟩ := left
  obtain ⟨other,beside⟩ := right
  obtain rfl : answer = other := answers
  cases answer with
  | error e => exact .inl ⟨e,after,beside,rfl,rfl,leads⟩
  | ok a => exact .inr ⟨a,after,beside,rfl,rfl,leads⟩

/-- One after the other, where what relates the states in between is also enough for a failure there. -/
theorem lockstep_bind {x : Fallible ε σ α} {y : Fallible ε τ α} {f : α → Fallible ε σ β} {g : α → Fallible ε τ β}
    (first : Lockstep R R x y) (second : ∀ a, Lockstep R Q (f a) (g a)) (enough : ∀ s t, R s t → Q s t) :
    Lockstep R Q (x >>= f) (y >>= g) := by
  intro s t related
  rcases lockstep_outcome first related with ⟨e,after,beside,left,right,between⟩ | ⟨a,after,beside,left,right,between⟩
  · rw [bind_error left,bind_error right]
    exact ⟨rfl,enough after beside between⟩
  · rw [bind_ok left,bind_ok right]
    exact second a after beside between

/-- One after the other, with one relation throughout. -/
theorem lockstep_then {x : Fallible ε σ α} {y : Fallible ε τ α} {f : α → Fallible ε σ β} {g : α → Fallible ε τ β}
    (first : Lockstep R R x y) (second : ∀ a, Lockstep R R (f a) (g a)) : Lockstep R R (x >>= f) (y >>= g) :=
  lockstep_bind first second fun _ _ related => related

/-- The values may be mapped afterwards, whatever relates the states. -/
theorem lockstep_map {x : Fallible ε σ α} {y : Fallible ε τ α} (lockstep : Lockstep R Q x y) (f : α → β) :
    Lockstep R Q (do let a ← x; pure (f a)) (do let a ← y; pure (f a)) := by
  intro s t related
  rcases lockstep_outcome lockstep related with ⟨e,after,beside,left,right,leads⟩ | ⟨a,after,beside,left,right,leads⟩
  · rw [bind_error left,bind_error right]
    exact ⟨rfl,leads⟩
  · rw [bind_ok left,bind_ok right]
    exact ⟨rfl,leads⟩

end
end FlowEmulator.Fallible
