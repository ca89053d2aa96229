import FlowEmulator.Fallible
import Mathlib.Logic.Function.Basic
import Mathlib.Data.List.Basic
import Mathlib.Data.List.Induction

/-!
Maps as functions, and the map after a list of assignments. A loop that assigns
to one map of a state is one update of the state (`forM_assign`).
-/
namespace FlowEmulator
variable {K V : Type} [DecidableEq K]

/-- The map after some assignments in order. -/
def assign (f : K → Option V) (entries : List (K × V)) : K → Option V :=
  entries.foldl (fun g entry => Function.update g entry.1 (some entry.2)) f

theorem assign_append (f : K → Option V) (front back : List (K × V)) :
    assign f (front ++ back) = assign (assign f front) back := List.foldl_append ..

/-- A key has the value of an assignment to it, or its old one when there is none. -/
theorem assign_cases (f : K → Option V) (entries : List (K × V)) (key : K) :
    (∃ value, (key,value) ∈ entries ∧ assign f entries key = some value) ∨
      ((∀ value, (key,value) ∉ entries) ∧ assign f entries key = f key) := by
  induction entries generalizing f with
  | nil => exact .inr ⟨fun _ => List.not_mem_nil,rfl⟩
  | cons entry rest ih =>
    rcases ih (Function.update f entry.1 (some entry.2)) with ⟨value,member,read⟩ | ⟨absent,read⟩
    · exact .inl ⟨value,List.mem_cons_of_mem _ member,read⟩
    · by_cases same : key = entry.1
      · subst same
        rw [Function.update_self] at read
        exact .inl ⟨entry.2,List.mem_cons_self,read⟩
      · rw [Function.update_of_ne same] at read
        refine .inr ⟨fun value member => ?_,read⟩
        rcases List.mem_cons.mp member with here | later
        · exact same (congrArg Prod.fst here)
        · exact absent value later

theorem assign_fresh {f : K → Option V} {entries : List (K × V)} {key : K} (absent : ∀ value, (key,value) ∉ entries) :
    assign f entries key = f key := by
  rcases assign_cases f entries key with ⟨value,member,_⟩ | ⟨_,read⟩
  · exact absurd member (absent value)
  · exact read

/-- A key has the value of the last assignment to it. -/
theorem assign_last (f : K → Option V) (entries : List (K × V)) (key : K) :
    assign f entries key = ((entries.filter fun entry => decide (entry.1 = key)).getLast?.map Prod.snd).or (f key) := by
  induction entries using List.reverseRecOn with
  | nil => simp [assign]
  | append_singleton front entry ih =>
    rw [assign_append]
    show Function.update (assign f front) entry.1 (some entry.2) key = _
    by_cases same : entry.1 = key
    · subst same
      simp [List.filter_append]
    · rw [Function.update_of_ne (Ne.symm same),ih]
      simp [List.filter_append,same]

/-- Assignments that give one key the images of the values that others give another. -/
theorem assign_image {L W : Type} [DecidableEq L] {h : V → W} {entries : List (K × V)} {images : List (L × W)} {key : K}
    {image : L} (same : (images.filter fun entry => decide (entry.1 = image)).map Prod.snd =
      (entries.filter fun entry => decide (entry.1 = key)).map fun entry => h entry.2) :
    assign (fun _ => none) images image = (assign (fun _ => none) entries key).map h := by
  rw [assign_last,assign_last,Option.or_none,Option.or_none,← List.getLast?_map,same,List.getLast?_map]
  cases (entries.filter fun entry => decide (entry.1 = key)).getLast? <;> rfl

namespace Fallible
variable {ε σ α : Type}

/-- A loop of assignments to one part of the state is one update of that part. -/
theorem forM_assign (get : σ → K → Option V) (put : (K → Option V) → σ → σ) (get_put : ∀ f s, get (put f s) = f)
    (put_put : ∀ f g s, put f (put g s) = put f s) (put_get : ∀ s, put (get s) s = s) (key : α → K) (value : α → V)
    (list : List α) :
    (list.forM fun a => update fun s => put (Function.update (get s) (key a) (some (value a))) s :
      Fallible ε σ Unit) =
      update fun s => put (assign (get s) (list.map fun a => (key a,value a))) s := by
  induction list with
  | nil =>
    funext s
    exact congrArg (Prod.mk (Except.ok ())) (put_get s).symm
  | cons a rest ih =>
    rw [forM_cons,ih]
    funext s
    let first := Function.update (get s) (key a) (some (value a))
    have step : put (assign (get (put first s)) (rest.map fun a => (key a,value a))) (put first s) =
        put (assign first (rest.map fun a => (key a,value a))) s := by
      rw [get_put,put_put]
    exact congrArg (Prod.mk (Except.ok ())) step

end Fallible
end FlowEmulator
