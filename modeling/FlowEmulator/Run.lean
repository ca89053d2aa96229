import Mathlib.Init

/-!
Runs of a machine: the state after a list of actions, conditions that every
action meets in the state before it, and the induction over a run.
-/
namespace FlowEmulator.Run
variable {σ α : Type}

/-- The state after some actions. -/
def play (step : α → σ → σ) (actions : List α) (s : σ) : σ := actions.foldl (fun current a => step a current) s

theorem play_nil (step : α → σ → σ) (s : σ) : play step [] s = s := rfl

theorem play_cons (step : α → σ → σ) (a : α) (rest : List α) (s : σ) :
    play step (a :: rest) s = play step rest (step a s) := rfl

theorem play_append (step : α → σ → σ) (front back : List α) (s : σ) :
    play step (front ++ back) s = play step back (play step front s) := List.foldl_append ..

/-- A part of the state on which every action does what it does in a smaller machine. -/
theorem play_project {τ : Type} {step : α → σ → σ} {other : α → τ → τ} {part : σ → τ}
    (each : ∀ a s, part (step a s) = other a (part s)) (actions : List α) (s : σ) :
    part (play step actions s) = play other actions (part s) := by
  induction actions generalizing s with
  | nil => rfl
  | cons a rest ih => rw [play_cons,play_cons,ih,each]

/-- Every action meets a condition in the state before it. -/
def Throughout (step : α → σ → σ) (condition : σ → α → Prop) : List α → σ → Prop
  | [], _ => True
  | a :: rest, s => condition s a ∧ Throughout step condition rest (step a s)

theorem throughout_append {step : α → σ → σ} {condition : σ → α → Prop} {front back : List α} {s : σ} :
    Throughout step condition (front ++ back) s ↔
      Throughout step condition front s ∧ Throughout step condition back (play step front s) := by
  induction front generalizing s with
  | nil => simp [Throughout,play]
  | cons a rest ih => simp only [List.cons_append,Throughout,ih,play_cons,and_assoc]

/-- A condition that every action meets in any state. -/
theorem throughout_any {step : α → σ → σ} {condition : σ → α → Prop} {actions : List α} {s : σ}
    (all : ∀ a ∈ actions, ∀ s, condition s a) : Throughout step condition actions s := by
  induction actions generalizing s with
  | nil => trivial
  | cons a rest ih => exact ⟨all a List.mem_cons_self s,ih (fun b later => all b (List.mem_cons_of_mem a later))⟩

/-- A condition on the actions alone. -/
theorem throughout_all {step : α → σ → σ} {condition : α → Prop} {actions : List α} {s : σ}
    (all : ∀ a ∈ actions, condition a) : Throughout step (fun _ a => condition a) actions s :=
  throughout_any fun a member _ => all a member

/-- What every action under the condition keeps holds after the run. -/
theorem play_keeps {step : α → σ → σ} {condition : σ → α → Prop} {invariant : σ → Prop}
    (keeps : ∀ s a, invariant s → condition s a → invariant (step a s)) {actions : List α} {s : σ}
    (start : invariant s) (throughout : Throughout step condition actions s) : invariant (play step actions s) := by
  induction actions generalizing s with
  | nil => exact start
  | cons a rest ih => exact ih (keeps s a start throughout.1) throughout.2

/-- What follows from an invariant that every action under the condition keeps holds before every action of the run. -/
theorem throughout_keeps {step : α → σ → σ} {condition conclusion : σ → α → Prop} {invariant : σ → Prop}
    (keeps : ∀ s a, invariant s → condition s a → invariant (step a s)) (follows : ∀ s a, invariant s → conclusion s a)
    {actions : List α} {s : σ} (start : invariant s) (throughout : Throughout step condition actions s) :
    Throughout step conclusion actions s := by
  induction actions generalizing s with
  | nil => trivial
  | cons a rest ih => exact ⟨follows s a start,ih (keeps s a start throughout.1) throughout.2⟩

/-- The states that are reached from an initial one by actions that all meet a condition. -/
def Reachable (step : α → σ → σ) (condition : σ → α → Prop) (initial : σ → Prop) (s : σ) : Prop :=
  ∃ start actions, initial start ∧ Throughout step condition actions start ∧ play step actions start = s

section
variable {step : α → σ → σ} {condition : σ → α → Prop} {initial : σ → Prop} {s : σ}

theorem reachable_initial (start : initial s) : Reachable step condition initial s := ⟨s,[],start,trivial,rfl⟩

theorem reachable_step (reached : Reachable step condition initial s) {a : α} (meets : condition s a) :
    Reachable step condition initial (step a s) := by
  obtain ⟨start,actions,first,throughout,rfl⟩ := reached
  refine ⟨start,actions ++ [a],first,throughout_append.mpr ⟨throughout,meets,trivial⟩,?_⟩
  rw [play_append,play_cons,play_nil]

/-- What is reached under a condition is reached without one. -/
theorem reachable_any (reached : Reachable step condition initial s) : Reachable step (fun _ _ => True) initial s := by
  obtain ⟨start,actions,first,_,last⟩ := reached
  exact ⟨start,actions,first,throughout_all (fun _ _ => trivial),last⟩

/-- What holds initially and is kept by every action under the condition holds in all states that are reached. -/
theorem reachable_keeps {invariant : σ → Prop} (first : ∀ s, initial s → invariant s)
    (keeps : ∀ s a, invariant s → condition s a → invariant (step a s)) (reached : Reachable step condition initial s) :
    invariant s := by
  obtain ⟨start,actions,isInitial,throughout,rfl⟩ := reached
  exact play_keeps keeps (first start isInitial) throughout

end
end FlowEmulator.Run
