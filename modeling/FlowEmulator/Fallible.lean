import Mathlib.Init

/-!
Computations that change a state and may fail. A failure keeps everything that
was changed before it: nothing is undone. `Keeps` collects the rules for what
holds before and after a computation, however it ends, `Projects` those for a
computation that does on a part of its state what another one does, `Raises`
those for the errors it can end with, and `Counts` those for how much it adds to a
number of things.
-/
namespace FlowEmulator

/-- A computation on states `σ`: a value or an error, and the state left either way. -/
def Fallible (ε σ α : Type) : Type := σ → Except ε α × σ

namespace Fallible
variable {ε σ τ α β : Type}

instance : Monad (Fallible ε σ) where
  pure a := fun s => (.ok a,s)
  bind x f := fun s => match x s with
    | (.ok a,after) => f a after
    | (.error e,after) => (.error e,after)

/-- Stop with an error. -/
def fail (e : ε) : Fallible ε σ α := fun s => (.error e,s)
/-- Look at the state. -/
def view (f : σ → α) : Fallible ε σ α := fun s => (.ok (f s),s)
/-- Look at the state where looking may fail. -/
def attempt (f : σ → Except ε α) : Fallible ε σ α := fun s => (f s,s)
/-- Change the state. -/
def update (f : σ → σ) : Fallible ε σ Unit := fun s => (.ok (),f s)
/-- Run on a part of the state, with the errors of the part renamed. -/
def inside {ε' : Type} (part : σ → τ) (put : τ → σ → σ) (wrap : ε' → ε) (x : Fallible ε' τ α) : Fallible ε σ α :=
  fun s => match x (part s) with
    | (.ok a,after) => (.ok a,put after s)
    | (.error e,after) => (.error (wrap e),put after s)

@[simp] theorem pure_run (a : α) (s : σ) : (pure a : Fallible ε σ α) s = (.ok a,s) := rfl
@[simp] theorem fail_run (e : ε) (s : σ) : (fail e : Fallible ε σ α) s = (.error e,s) := rfl
@[simp] theorem view_run (f : σ → α) (s : σ) : (view f : Fallible ε σ α) s = (.ok (f s),s) := rfl
@[simp] theorem attempt_run (f : σ → Except ε α) (s : σ) : attempt f s = (f s,s) := rfl
@[simp] theorem update_run (f : σ → σ) (s : σ) : (update f : Fallible ε σ Unit) s = (.ok (),f s) := rfl

theorem bind_run (x : Fallible ε σ α) (f : α → Fallible ε σ β) (s : σ) :
    (x >>= f) s = match x s with
      | (.ok a,after) => f a after
      | (.error e,after) => (.error e,after) := rfl

theorem bind_ok {x : Fallible ε σ α} {s after : σ} {a : α} (run : x s = (.ok a,after)) (f : α → Fallible ε σ β) :
    (x >>= f) s = f a after := by
  rw [bind_run,run]

theorem bind_error {x : Fallible ε σ α} {s after : σ} {e : ε} (run : x s = (.error e,after))
    (f : α → Fallible ε σ β) : (x >>= f) s = (.error e,after) := by
  rw [bind_run,run]

theorem bind_left {x y : Fallible ε σ α} {s : σ} (same : x s = y s) (f : α → Fallible ε σ β) : (x >>= f) s = (y >>= f) s := by
  rw [bind_run,bind_run,same]

theorem inside_ok {ε' : Type} {part : σ → τ} {put : τ → σ → σ} {wrap : ε' → ε} {x : Fallible ε' τ α} {s : σ} {after : τ} {a : α}
    (run : x (part s) = (.ok a,after)) : inside part put wrap x s = (.ok a,put after s) := by
  simp [inside,run]

theorem inside_error {ε' : Type} {part : σ → τ} {put : τ → σ → σ} {wrap : ε' → ε} {x : Fallible ε' τ α} {s : σ} {after : τ}
    {e : ε'} (run : x (part s) = (.error e,after)) : inside part put wrap x s = (.error (wrap e),put after s) := by
  simp [inside,run]

instance : LawfulMonad (Fallible ε σ) := LawfulMonad.mk' _
  (by
    intro α x
    funext s
    show (x >>= fun a => pure (id a)) s = x s
    rw [bind_run]
    rcases x s with ⟨result,after⟩
    cases result <;> rfl)
  (by intros; rfl)
  (by
    intro α β γ x f g
    funext s
    simp only [bind_run]
    rcases x s with ⟨result,after⟩
    cases result <;> rfl)

@[simp] theorem fail_bind (e : ε) (f : α → Fallible ε σ β) : (fail e >>= f : Fallible ε σ β) = fail e := rfl

/-- A bind that succeeds is two successes. -/
theorem bind_eq_ok {x : Fallible ε σ α} {f : α → Fallible ε σ β} {s after : σ} {b : β} :
    (x >>= f) s = (.ok b,after) ↔ ∃ a middle, x s = (.ok a,middle) ∧ f a middle = (.ok b,after) := by
  rw [bind_run]
  constructor
  · intro run
    rcases first : x s with ⟨result,middle⟩
    rw [first] at run
    cases result with
    | ok a => exact ⟨a,middle,rfl,run⟩
    | error e => simp at run
  · rintro ⟨a,middle,first,second⟩
    rw [first]
    exact second

theorem attempt_eq_ok {f : σ → Except ε α} {s after : σ} {a : α} :
    attempt f s = (.ok a,after) ↔ f s = .ok a ∧ after = s := by
  rw [attempt_run,Prod.mk.injEq,eq_comm (a := s)]

/-- The computation keeps `P`, also where it fails. -/
def Keeps (P : σ → Prop) (x : Fallible ε σ α) : Prop := ∀ s, P s → P (x s).2

theorem keeps_pure (P : σ → Prop) (a : α) : Keeps P (pure a : Fallible ε σ α) := fun _ holds => holds
theorem keeps_fail (P : σ → Prop) (e : ε) : Keeps P (fail e : Fallible ε σ α) := fun _ holds => holds
theorem keeps_view (P : σ → Prop) (f : σ → α) : Keeps P (view f : Fallible ε σ α) := fun _ holds => holds
theorem keeps_attempt (P : σ → Prop) (f : σ → Except ε α) : Keeps P (attempt f) := fun _ holds => holds
theorem keeps_update {P : σ → Prop} {f : σ → σ} (keeps : ∀ s, P s → P (f s)) :
    Keeps P (update f : Fallible ε σ Unit) := keeps

theorem keeps_bind {P : σ → Prop} {x : Fallible ε σ α} {f : α → Fallible ε σ β} (first : Keeps P x)
    (second : ∀ a, Keeps P (f a)) : Keeps P (x >>= f) := by
  intro s holds
  have middle := first s holds
  rw [bind_run]
  rcases run : x s with ⟨result,after⟩
  rw [run] at middle
  cases result with
  | ok a => exact second a after middle
  | error e => exact middle

theorem keeps_forM {P : σ → Prop} {f : α → Fallible ε σ Unit} (each : ∀ a, Keeps P (f a)) (list : List α) :
    Keeps P (list.forM f) := by
  induction list with
  | nil => exact keeps_pure P ()
  | cons a rest ih => exact keeps_bind (each a) (fun _ => ih)

/-- On the part of its state the computation `y` is the computation `x`. -/
def Projects (part : σ → τ) (y : Fallible ε σ α) (x : Fallible ε τ α) : Prop := ∀ s, ((y s).1,part (y s).2) = x (part s)

section
variable {part : σ → τ}

theorem projects_pure (a : α) : Projects part (pure a : Fallible ε σ α) (pure a) := fun _ => rfl
theorem projects_fail (e : ε) : Projects part (fail e : Fallible ε σ α) (fail e) := fun _ => rfl
theorem projects_view (f : τ → α) : Projects part (view fun s => f (part s) : Fallible ε σ α) (view f) := fun _ => rfl
theorem projects_attempt {f : σ → Except ε α} {g : τ → Except ε α} (same : ∀ s, f s = g (part s)) :
    Projects part (attempt f) (attempt g) := fun s => Prod.ext (same s) rfl
theorem projects_update {f : σ → σ} {g : τ → τ} (same : ∀ s, part (f s) = g (part s)) :
    Projects part (update f : Fallible ε σ Unit) (update g) := fun s => Prod.ext rfl (same s)

theorem projects_bind {y : Fallible ε σ α} {x : Fallible ε τ α} {g : α → Fallible ε σ β} {f : α → Fallible ε τ β}
    (first : Projects part y x) (second : ∀ a, Projects part (g a) (f a)) : Projects part (y >>= g) (x >>= f) := by
  intro s
  have start := first s
  rw [bind_run,bind_run,← start]
  rcases run : y s with ⟨result,after⟩
  cases result with
  | ok a => exact second a after
  | error e => rfl

end

/-- The computation fails only with errors of a kind. -/
def Raises (P : ε → Prop) (x : Fallible ε σ α) : Prop := ∀ s e, (x s).1 = .error e → P e

theorem raises_pure (P : ε → Prop) (a : α) : Raises P (pure a : Fallible ε σ α) := fun _ _ failed => nomatch failed
theorem raises_update (P : ε → Prop) (f : σ → σ) : Raises P (update f : Fallible ε σ Unit) := fun _ _ failed => nomatch failed
theorem raises_attempt {P : ε → Prop} {f : σ → Except ε α} (each : ∀ s e, f s = .error e → P e) : Raises P (attempt f) := each

theorem raises_bind {P : ε → Prop} {x : Fallible ε σ α} {f : α → Fallible ε σ β} (first : Raises P x)
    (second : ∀ a, Raises P (f a)) : Raises P (x >>= f) := by
  intro s e failed
  have start := first s
  rw [bind_run] at failed
  rcases run : x s with ⟨result,after⟩
  rw [run] at failed start
  cases result with
  | ok a => exact second a after e failed
  | error other =>
    cases failed
    exact start e rfl

theorem raises_forM {P : ε → Prop} {f : α → Fallible ε σ Unit} (each : ∀ a, Raises P (f a)) (list : List α) :
    Raises P (list.forM f) := by
  induction list with
  | nil => exact raises_pure P ()
  | cons a rest ih => exact raises_bind (each a) (fun _ => ih)

/-- While `P` holds the computation adds to a count: so many if it succeeds, and at most so many if it fails. -/
structure Counts (P : σ → Prop) (count : σ → Nat) (added most : Nat) (x : Fallible ε σ α) : Prop where
  keeps : Keeps P x
  ok : ∀ {s a after}, P s → x s = (.ok a,after) → count after = count s+added
  error : ∀ {s e after}, P s → x s = (.error e,after) → count s ≤ count after ∧ count after ≤ count s+most

section
variable {P : σ → Prop} {count : σ → Nat} {added most : Nat}

theorem counts_view (f : σ → α) : Counts P count 0 0 (view f : Fallible ε σ α) where
  keeps := keeps_view P f
  ok _ run := by cases run; rfl
  error _ run := nomatch run

theorem counts_attempt (f : σ → Except ε α) : Counts P count 0 0 (attempt f) where
  keeps := keeps_attempt P f
  ok _ run := by cases congrArg Prod.snd run; rfl
  error _ run := by cases congrArg Prod.snd run; exact ⟨Nat.le_refl _,Nat.le_refl _⟩

theorem counts_update {f : σ → σ} (keeps : ∀ s, P s → P (f s)) (same : ∀ s, count (f s) = count s) :
    Counts P count 0 0 (update f : Fallible ε σ Unit) where
  keeps := keeps_update keeps
  ok _ run := by cases run; exact same _
  error _ run := nomatch run

/-- A failure adds nothing, whatever a success would have added. -/
theorem counts_fail (e : ε) : Counts P count added most (fail e : Fallible ε σ α) where
  keeps := keeps_fail P e
  ok _ run := nomatch run
  error _ run := by cases run; exact ⟨Nat.le_refl _,Nat.le_add_right _ _⟩

theorem counts_bind {x : Fallible ε σ α} {f : α → Fallible ε σ β} {later laterMost total bound : Nat}
    (first : Counts P count added most x) (second : ∀ a, Counts P count later laterMost (f a)) (sum : added+later = total)
    (low : most ≤ bound) (high : added+laterMost ≤ bound) : Counts P count total bound (x >>= f) where
  keeps := keeps_bind first.keeps fun a => (second a).keeps
  ok {s b after} holds run := by
    obtain ⟨a,middle,one,two⟩ := bind_eq_ok.mp run
    have kept := first.keeps s holds
    rw [one] at kept
    have start := first.ok holds one
    have rest : count after = count middle+later := (second a).ok kept two
    omega
  error {s e after} holds run := by
    have kept := first.keeps s holds
    rw [bind_run] at run
    rcases one : x s with ⟨other | a,middle⟩
    · rw [one] at run
      cases run
      have bounds := first.error holds one
      omega
    · rw [one] at run kept
      have start := first.ok holds one
      have bounds : count middle ≤ count after ∧ count after ≤ count middle+laterMost := (second a).error kept run
      omega

/-- After a computation that adds nothing. -/
theorem counts_after {x : Fallible ε σ α} {f : α → Fallible ε σ β} (first : Counts P count 0 0 x)
    (second : ∀ a, Counts P count added most (f a)) : Counts P count added most (x >>= f) :=
  counts_bind first second (Nat.zero_add _) (Nat.zero_le _) (Nat.le_of_eq (Nat.zero_add _))

/-- A value that is returned in place of another. -/
theorem counts_return {x : Fallible ε σ α} {g : α → β} (counts : Counts P count added most x) :
    Counts P count added most (x >>= fun a => pure (g a)) where
  keeps := keeps_bind counts.keeps fun _ => keeps_pure _ _
  ok {s b after} holds run := by
    obtain ⟨a,middle,one,two⟩ := bind_eq_ok.mp run
    cases two
    exact counts.ok holds one
  error {s e after} holds run := by
    rw [bind_run] at run
    rcases one : x s with ⟨other | a,middle⟩
    · rw [one] at run
      cases run
      exact counts.error holds one
    · rw [one] at run
      cases run

end

theorem forM_cons (f : α → Fallible ε σ Unit) (a : α) (rest : List α) :
    (a :: rest).forM f = (f a >>= fun _ => rest.forM f) := rfl

theorem forM_nothing {f : α → Fallible ε σ Unit} (nothing : ∀ a, f a = pure ()) (list : List α) : list.forM f = pure () := by
  induction list with
  | nil => rfl
  | cons a rest ih => rw [forM_cons,nothing,ih]; rfl

theorem forM_singleton (f : α → Fallible ε σ Unit) (a : α) : [a].forM f = f a := bind_pure_unit

theorem forM_append (f : α → Fallible ε σ Unit) (front back : List α) :
    (front ++ back).forM f = (front.forM f >>= fun _ => back.forM f) := by
  induction front with
  | nil => rfl
  | cons a rest ih => rw [List.cons_append,forM_cons,forM_cons,ih,bind_assoc]

theorem forM_map {γ : Type} (f : γ → Fallible ε σ Unit) (g : α → γ) (list : List α) :
    (list.map g).forM f = list.forM (fun a => f (g a)) := by
  induction list with
  | nil => rfl
  | cons a rest ih => rw [List.map_cons,forM_cons,forM_cons,ih]

theorem forM_skip (f : α → Fallible ε σ Unit) (skip : α → Bool) (list : List α) :
    list.forM (fun a => if skip a then pure () else f a) = (list.filter (fun a => !skip a)).forM f := by
  induction list with
  | nil => rfl
  | cons a rest ih =>
    rw [forM_cons,ih,List.filter_cons]
    cases skip a <;> rfl

end Fallible
end FlowEmulator
