import FlowEmulator.Fallible

/-!
Loops that collect what their rounds return. A round can fail, and then the loop
returns what it has collected so far together with the error. The number of
rounds is bounded; a loop that has ended by itself is not changed by a larger
bound.
-/
namespace FlowEmulator.Rounds
variable {σ ε α β : Type}

/-- What a loop returns: the results so far, the error that stopped it, and the state it leaves. -/
structure Returned (σ ε α : Type) where
  results : List α
  error : Option ε
  state : σ

/-- The return of a loop that has collected another result before. -/
def Returned.after (a : α) (r : Returned σ ε α) : Returned σ ε α := { r with results := a :: r.results }

/-- Go on with another loop, unless there was an error. -/
def Returned.andThen (r : Returned σ ε α) (next : σ → Returned σ ε α) : Returned σ ε α :=
  match r.error with
  | some _ => r
  | none => { next r.state with results := r.results ++ (next r.state).results }

/-- Up to a number of rounds, while a condition holds. -/
def loop (more : σ → Bool) (round : σ → Except ε α × σ) : Nat → σ → Returned σ ε α
  | 0, s => ⟨[],none,s⟩
  | fuel+1, s =>
    if more s then match round s with
      | (.error e,t) => ⟨[],some e,t⟩
      | (.ok a,t) => (loop more round fuel t).after a
    else ⟨[],none,s⟩

/-- A number of rounds, whatever the state is. -/
def rounds (round : σ → Except ε α × σ) (count : Nat) (s : σ) : Returned σ ε α := loop (fun _ => true) round count s

/-- A round for each item of a list. -/
def forEach (round : β → Fallible ε σ α) : List β → σ → Returned σ ε α
  | [], s => ⟨[],none,s⟩
  | b :: rest, s => match round b s with
    | (.error e,t) => ⟨[],some e,t⟩
    | (.ok a,t) => (forEach round rest t).after a

/-- The rounds for the items of a list all succeed. -/
def Succeeds (round : β → Fallible ε σ α) : List β → σ → Prop
  | [], _ => True
  | b :: rest, s => ∃ a t, round b s = (.ok a,t) ∧ Succeeds round rest t

/-- A loop with this return has ended by itself. -/
def Ended (more : σ → Bool) (r : Returned σ ε α) : Prop := r.error.isSome ∨ more r.state = false

theorem andThen_after (a : α) (r : Returned σ ε α) (next : σ → Returned σ ε α) :
    (r.after a).andThen next = (r.andThen next).after a := by
  obtain ⟨results,error,state⟩ := r
  cases error <;> rfl

section
variable {more : σ → Bool} {round : σ → Except ε α × σ}

theorem loop_stop {s : σ} (stop : more s = false) (fuel : Nat) : loop more round fuel s = ⟨[],none,s⟩ := by
  cases fuel with
  | zero => rfl
  | succ fuel =>
    unfold loop
    rw [if_neg (by rw [stop]; decide)]

theorem loop_error {s t : σ} {e : ε} (go : more s = true) (failed : round s = (.error e,t)) (fuel : Nat) :
    loop more round (fuel+1) s = ⟨[],some e,t⟩ := by
  unfold loop
  rw [if_pos go,failed]

theorem loop_ok {s t : σ} {a : α} (go : more s = true) (done : round s = (.ok a,t)) (fuel : Nat) :
    loop more round (fuel+1) s = (loop more round fuel t).after a := by
  rw [loop,if_pos go,done]

theorem forEach_error {round : β → Fallible ε σ α} {b : β} {s t : σ} {e : ε} (failed : round b s = (.error e,t))
    (rest : List β) : forEach round (b :: rest) s = ⟨[],some e,t⟩ := by
  rw [forEach,failed]

theorem forEach_ok {round : β → Fallible ε σ α} {b : β} {s t : σ} {a : α} (done : round b s = (.ok a,t))
    (rest : List β) : forEach round (b :: rest) s = (forEach round rest t).after a := by
  rw [forEach,done]

theorem succeeds_cons {round : β → Fallible ε σ α} {b : β} {s t : σ} {a : α} (done : round b s = (.ok a,t))
    {rest : List β} : Succeeds round (b :: rest) s ↔ Succeeds round rest t := by
  constructor
  · rintro ⟨_,_,again,later⟩
    rw [done] at again
    cases again
    exact later
  · exact fun later => ⟨a,t,done,later⟩

/-- What a loop has collected was returned by rounds in states that the rounds keep to. -/
theorem loop_mem (kept : σ → Prop) (keeps : ∀ s, kept s → kept (round s).2) {fuel : Nat} {s : σ} (start : kept s) {a : α}
    (collected : a ∈ (loop more round fuel s).results) : ∃ t, kept t ∧ (round t).1 = .ok a := by
  induction fuel generalizing s with
  | zero => cases collected
  | succ fuel ih =>
    cases go : more s with
    | false =>
      rw [loop_stop go] at collected
      cases collected
    | true =>
      have next := keeps s start
      rcases run : round s with ⟨e | first,t⟩
      · rw [loop_error go run] at collected
        cases collected
      · rw [loop_ok go run] at collected
        rw [run] at next
        rcases List.mem_cons.mp collected with rfl | later
        · exact ⟨s,start,by rw [run]⟩
        · exact ih next later

theorem forEach_mem {round : β → Fallible ε σ α} {s : σ} (keeps : ∀ b, (round b s).2 = s) {list : List β} {a : α}
    (collected : a ∈ (forEach round list s).results) : ∃ b ∈ list, (round b s).1 = .ok a := by
  induction list with
  | nil => cases collected
  | cons b rest ih =>
    have same := keeps b
    rcases run : round b s with ⟨e | first,t⟩
    · rw [forEach_error run] at collected
      cases collected
    · rw [run] at same
      subst same
      rw [forEach_ok run] at collected
      rcases List.mem_cons.mp collected with rfl | later
      · exact ⟨b,List.mem_cons_self,by rw [run]⟩
      · obtain ⟨c,member,done⟩ := ih later
        exact ⟨c,List.mem_cons_of_mem b member,done⟩

/-- A bound can be split. -/
theorem loop_add (front back : Nat) (s : σ) :
    loop more round (front+back) s = (loop more round front s).andThen (loop more round back) := by
  induction front generalizing s with
  | zero =>
    rw [Nat.zero_add]
    rfl
  | succ front ih =>
    rw [Nat.add_right_comm]
    cases go : more s with
    | false =>
      rw [loop_stop go,loop_stop go]
      show _ = Returned.mk ([] ++ (loop more round back s).results) _ _
      rw [loop_stop go]
      rfl
    | true =>
      rcases run : round s with ⟨e | a,t⟩
      · rw [loop_error go run,loop_error go run]
        rfl
      · rw [loop_ok go run,loop_ok go run,andThen_after,ih]

/-- A loop that has ended by itself is not changed by a larger bound. -/
theorem loop_ended {bound : Nat} {s : σ} (ended : Ended more (loop more round bound s)) (extra : Nat) :
    loop more round (bound+extra) s = loop more round bound s := by
  rw [loop_add]
  unfold Returned.andThen
  cases error : (loop more round bound s).error with
  | some e => rfl
  | none =>
    rcases ended with stopped | stop
    · rw [error] at stopped
      cases stopped
    · dsimp only
      rw [loop_stop stop,List.append_nil,← error]

/-- An invariant that counts the rounds down holds after rounds that succeeded. -/
theorem rounds_keeps {invariant : Nat → σ → Prop}
    (keeps : ∀ n s a t, invariant (n+1) s → round s = (.ok a,t) → invariant n t) {front back : Nat} {s : σ}
    (start : invariant (front+back) s) (succeeded : (rounds round front s).error = none) :
    invariant back (rounds round front s).state := by
  induction front generalizing s with
  | zero =>
    rw [Nat.zero_add] at start
    exact start
  | succ front ih =>
    rw [Nat.add_right_comm] at start
    unfold rounds at succeeded ⊢
    rcases run : round s with ⟨e | a,t⟩
    · rw [loop_error rfl run] at succeeded
      cases succeeded
    · rw [loop_ok rfl run] at succeeded ⊢
      exact ih (keeps _ s a t start run) succeeded

/-- Where the condition holds as long as there are rounds to make, and the rounds
    are those of another loop, the loop is the same number of these rounds. -/
theorem loop_eq_rounds {invariant : Nat → σ → Prop} {again : σ → Except ε α × σ}
    (same : ∀ n s, invariant (n+1) s → more s = true ∧ round s = again s)
    (keeps : ∀ n s a t, invariant (n+1) s → again s = (.ok a,t) → invariant n t) {count : Nat} {s : σ}
    (start : invariant count s) : loop more round count s = rounds again count s := by
  induction count generalizing s with
  | zero => rfl
  | succ count ih =>
    obtain ⟨go,equal⟩ := same count s start
    unfold rounds
    rcases run : again s with ⟨e | a,t⟩
    · rw [loop_error go (equal.trans run),loop_error rfl run]
    · rw [loop_ok go (equal.trans run),loop_ok rfl run,ih (keeps count s a t start run)]
      rfl

end

theorem andThen_congr {r : Returned σ ε α} {next other : σ → Returned σ ε α}
    (same : r.error = none → next r.state = other r.state) : r.andThen next = r.andThen other := by
  unfold Returned.andThen
  cases error : r.error with
  | some e => rfl
  | none =>
    dsimp only
    rw [same error]

end FlowEmulator.Rounds
