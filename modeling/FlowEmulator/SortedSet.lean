import FlowEmulator.Choice
import Mathlib.Data.List.AList
import Mathlib.Order.Monotone.Basic

/-!
Sets whose members carry a score, and their use as a log of versions: a value is
added as a member with its version as score, on a scale that may round, and a
read takes a member of greatest score up to a bound. Since adding a member again
moves it, such a log reads back right exactly when no value returns
(`zRevRangeByScore_log_iff`).
-/
namespace FlowEmulator.SortedSet

/-- Members with one score each. -/
abbrev Scores (M : Type) := AList (fun _ : M => Nat)

/-- The score of an entry. -/
def score {M : Type} (entry : Sigma fun _ : M => Nat) : Nat := entry.2

section
variable {M : Type} [DecidableEq M]

/-- Add a member, or give it a new score. -/
def zadd (set : Scores M) (member : M) (score : Nat) : Scores M := set.insert member score

/-- The first member in descending order of the scores up to a bound. -/
def zRevRangeByScore (choice : TopChoice (score (M := M))) (set : Scores M) (max : Nat) : Option M :=
  (choice.pick (set.entries.filter fun entry => decide (entry.2 ≤ max))).map Sigma.fst

/-- The set after values were added under their versions on a scale. -/
def log (scale : Nat → Nat) (calls : List (Nat × M)) : Scores M :=
  calls.foldl (fun set call => zadd set call.2 (scale call.1)) ∅

/-- Versions that increase from call to call. -/
def Increasing (calls : List (Nat × M)) : Prop := calls.Pairwise fun call later => call.1 < later.1

instance (calls : List (Nat × M)) : Decidable (Increasing calls) := inferInstanceAs (Decidable (List.Pairwise _ _))

/-- The value of the last call up to a version. -/
def lastAtMost (calls : List (Nat × M)) (version : Nat) : Option M :=
  (calls.filter fun call => decide (call.1 ≤ version)).getLast?.map Prod.snd

omit [DecidableEq M] in
theorem increasing_last {calls : List (Nat × M)} (increasing : Increasing calls) {call : Nat × M} :
    calls.getLast? = some call ↔ call ∈ calls ∧ ∀ other ∈ calls, other.1 ≤ call.1 := by
  constructor
  · intro last
    obtain ⟨front,rfl⟩ := List.getLast?_eq_some_iff.mp last
    refine ⟨by simp,fun other member => ?_⟩
    rcases List.mem_append.mp member with before | here
    · exact ((List.pairwise_append.mp increasing).2.2 other before call (by simp)).le
    · rw [List.mem_singleton.mp here]
  · rintro ⟨member,top⟩
    rcases List.eq_nil_or_concat calls with rfl | ⟨front,last,rfl⟩
    · cases member
    · rw [List.concat_eq_append] at *
      rw [List.getLast?_append_cons,List.getLast?_singleton]
      rcases List.mem_append.mp member with before | here
      · have less := (List.pairwise_append.mp increasing).2.2 call before last (by simp)
        have more := top last (by simp)
        omega
      · rw [List.mem_singleton.mp here]

omit [DecidableEq M] in
theorem lastAtMost_some {calls : List (Nat × M)} (increasing : Increasing calls) {version : Nat} {m : M} :
    lastAtMost calls version = some m ↔
      ∃ u, (u,m) ∈ calls ∧ u ≤ version ∧ ∀ call ∈ calls, call.1 ≤ version → call.1 ≤ u := by
  unfold lastAtMost
  rw [Option.map_eq_some_iff]
  constructor
  · rintro ⟨⟨u,value⟩,last,rfl⟩
    obtain ⟨member,top⟩ := (increasing_last (increasing.filter _)).mp last
    obtain ⟨inside,low⟩ := List.mem_filter.mp member
    exact ⟨u,inside,by simpa using low,fun call here callLow => top call (List.mem_filter.mpr ⟨here,by simpa using callLow⟩)⟩
  · rintro ⟨u,inside,low,top⟩
    refine ⟨(u,m),(increasing_last (increasing.filter _)).mpr ⟨List.mem_filter.mpr ⟨inside,by simpa using low⟩,?_⟩,rfl⟩
    intro call member
    obtain ⟨here,callLow⟩ := List.mem_filter.mp member
    exact top call here (by simpa using callLow)

omit [DecidableEq M] in
theorem lastAtMost_none {calls : List (Nat × M)} {version : Nat} :
    lastAtMost calls version = none ↔ ∀ call ∈ calls, version < call.1 := by
  unfold lastAtMost
  rw [Option.map_eq_none_iff,List.getLast?_eq_none_iff,List.filter_eq_nil_iff]
  simp

/-- A member carries the score of the last call with its value. -/
theorem mem_log {scale : Nat → Nat} {calls : List (Nat × M)} (increasing : Increasing calls) {m : M} {s : Nat} :
    (⟨m,s⟩ : Sigma fun _ : M => Nat) ∈ (log scale calls).entries ↔
      ∃ u, (u,m) ∈ calls ∧ s = scale u ∧ ∀ v, (v,m) ∈ calls → v ≤ u := by
  induction calls using List.reverseRecOn with
  | nil => simp [log]
  | append_singleton front call ih =>
    obtain ⟨frontIncreasing,_,below⟩ := List.pairwise_append.mp increasing
    have step : log scale (front ++ [call]) = (log scale front).insert call.2 (scale call.1) := by
      unfold log zadd
      rw [List.foldl_append]
      rfl
    rw [step,← AList.mem_lookup_iff]
    by_cases same : m = call.2
    · rw [same,AList.lookup_insert,Option.mem_some_iff]
      constructor
      · rintro rfl
        refine ⟨call.1,by simp,rfl,fun v member => ?_⟩
        rcases List.mem_append.mp member with before | here
        · exact (below (v,call.2) before call (by simp)).le
        · rw [← List.mem_singleton.mp here]
      · rintro ⟨u,member,rfl,top⟩
        rcases List.mem_append.mp member with before | here
        · have less := below (u,call.2) before call (by simp)
          have more := top call.1 (by simp)
          exact absurd less (by omega)
        · rw [← List.mem_singleton.mp here]
    · rw [AList.lookup_insert_ne same,AList.mem_lookup_iff,ih frontIncreasing]
      have apart (v : Nat) : (v,m) ∈ front ++ [call] ↔ (v,m) ∈ front := by
        rw [List.mem_append,List.mem_singleton]
        refine ⟨fun either => either.resolve_right (fun equal => same ?_),.inl⟩
        rw [← equal]
      simp only [apart]

end

/-- The calls can be told apart on the scale: two calls have one value exactly
    when their versions have one score, and the first version with a score, where
    it is called, is the least number with that score. -/
def Separated {M : Type} (scale : Nat → Nat) (calls : List (Nat × M)) : Prop :=
  (∀ call ∈ calls, ∀ other ∈ calls, call.2 = other.2 ↔ scale call.1 = scale other.1) ∧
    ∀ call ∈ calls, 0 < call.1 →
      scale (call.1 - 1) < scale call.1 ∨ ∃ other ∈ calls, other.1 < call.1 ∧ scale other.1 = scale call.1

section
variable {M : Type} [DecidableEq M] {scale : Nat → Nat} {calls : List (Nat × M)}

omit [DecidableEq M] in
/-- A version has no score of a call above it unless a call up to it has that score. -/
theorem separated_class (separated : Separated scale calls) (monotone : Monotone scale) {version : Nat} :
    ∀ n, ∀ call ∈ calls, call.1 = n → scale call.1 = scale version →
      ∃ other ∈ calls, other.1 ≤ version ∧ scale other.1 = scale version := by
  intro n
  induction n using Nat.strong_induction_on with
  | _ n ih =>
    rintro call member rfl same
    by_cases low : call.1 ≤ version
    · exact ⟨call,member,low,same⟩
    · rcases separated.2 call member (by omega) with gap | ⟨other,otherMember,less,class_eq⟩
      · have order := monotone (show version ≤ call.1 - 1 by omega)
        omega
      · exact ih other.1 less other otherMember rfl (class_eq.trans same)

/-- A log whose calls can be told apart reads back right. -/
theorem zRevRangeByScore_of_separated (choice : TopChoice (score (M := M))) (monotone : Monotone scale)
    (increasing : Increasing calls) (separated : Separated scale calls) (version : Nat) :
    zRevRangeByScore choice (log scale calls) (scale version) = lastAtMost calls version := by
  unfold zRevRangeByScore
  have candidate {entry : Sigma fun _ : M => Nat}
      (member : entry ∈ (log scale calls).entries.filter fun entry => decide (entry.2 ≤ scale version)) :
      ∃ u, (u,entry.1) ∈ calls ∧ entry.2 = scale u ∧ scale u ≤ scale version := by
    obtain ⟨inside,low⟩ := List.mem_filter.mp member
    obtain ⟨u,called,same,_⟩ := (mem_log increasing).mp inside
    exact ⟨u,called,same,by simpa [same] using low⟩
  have reached {u : Nat} {m : M} (called : (u,m) ∈ calls) (low : scale u ≤ scale version) :
      ∃ other ∈ calls, other.1 ≤ version ∧ scale u ≤ scale other.1 := by
    by_cases before : u ≤ version
    · exact ⟨(u,m),called,before,le_rfl⟩
    · have same : scale u = scale version := le_antisymm low (monotone (by omega))
      obtain ⟨other,member,otherLow,otherSame⟩ := separated_class separated monotone u (u,m) called rfl same
      exact ⟨other,member,otherLow,(same.trans otherSame.symm).le⟩
  cases expected : lastAtMost calls version with
  | none =>
    have above := lastAtMost_none.mp expected
    have empty : (log scale calls).entries.filter (fun entry => decide (entry.2 ≤ scale version)) = [] := by
      refine List.eq_nil_iff_forall_not_mem.mpr (fun entry member => ?_)
      obtain ⟨u,called,_,low⟩ := candidate member
      obtain ⟨other,otherMember,otherLow,_⟩ := reached called low
      exact absurd (above other otherMember) (by omega)
    rw [empty,choice.pick_nil]
    rfl
  | some m =>
    obtain ⟨u,called,low,top⟩ := (lastAtMost_some increasing).mp expected
    -- the entry of `m` has the score of its last call, which is the score of this one
    obtain ⟨last,lastCall,lastTop⟩ : ∃ last, (last,m) ∈ calls ∧ ∀ v, (v,m) ∈ calls → v ≤ last := by
      have sorted : Increasing (calls.filter fun call => decide (call.2 = m)) := increasing.filter _
      have inside : (u,m) ∈ calls.filter fun call => decide (call.2 = m) := List.mem_filter.mpr ⟨called,by simp⟩
      obtain ⟨final,found⟩ := Option.ne_none_iff_exists'.mp
        (fun none => List.ne_nil_of_mem inside (List.getLast?_eq_none_iff.mp none))
      obtain ⟨member,greatest⟩ := (increasing_last sorted).mp found
      obtain ⟨here,value⟩ := List.mem_filter.mp member
      have value : final.2 = m := by simpa using value
      refine ⟨final.1,value ▸ here,fun v other => greatest (v,m) (List.mem_filter.mpr ⟨other,by simp⟩)⟩
    have lastSame : scale last = scale u := (separated.1 _ lastCall _ called).mp rfl
    have entry : (⟨m,scale last⟩ : Sigma fun _ : M => Nat) ∈
        (log scale calls).entries.filter fun entry => decide (entry.2 ≤ scale version) := by
      refine List.mem_filter.mpr ⟨(mem_log increasing).mpr ⟨last,lastCall,rfl,lastTop⟩,?_⟩
      simpa [lastSame] using monotone low
    obtain ⟨found,picked,member,greatest⟩ := choice.pick_some entry
    obtain ⟨w,wCalled,wScore,wLow⟩ := candidate member
    obtain ⟨other,otherMember,otherLow,wOther⟩ := reached wCalled wLow
    have below : scale w ≤ scale u := wOther.trans (monotone (top other otherMember otherLow))
    have above : scale u ≤ scale w := by
      have rank : scale last ≤ found.2 := greatest
      omega
    have same : found.1 = m := (separated.1 _ wCalled _ called).mpr (le_antisymm below above)
    rw [picked,Option.map_some,same]

/-- A log that reads back right at every version has calls that can be told apart. -/
theorem separated_of_zRevRangeByScore (choice : TopChoice (score (M := M))) (monotone : Monotone scale)
    (increasing : Increasing calls)
    (right : ∀ version, zRevRangeByScore choice (log scale calls) (scale version) = lastAtMost calls version) :
    Separated scale calls := by
  have own {call : Nat × M} (member : call ∈ calls) : lastAtMost calls call.1 = some call.2 :=
    (lastAtMost_some increasing).mpr ⟨call.1,member,le_rfl,fun _ _ low => low⟩
  have same_scale {v w : Nat} (same : scale v = scale w) : lastAtMost calls v = lastAtMost calls w := by
    rw [← right v,← right w,same]
  have same_value {call other : Nat × M} (member : call ∈ calls) (otherMember : other ∈ calls)
      (less : call.1 ≤ other.1) (same : call.2 = other.2) : scale call.1 = scale other.1 := by
    have read := (right call.1).trans (own member)
    obtain ⟨entry,picked,value⟩ := Option.map_eq_some_iff.mp read
    obtain ⟨inside,low⟩ := List.mem_filter.mp (choice.pick_mem _ _ picked)
    obtain ⟨last,_,score,greatest⟩ := (mem_log increasing).mp inside
    have bound : other.1 ≤ last := greatest other.1 (by rw [value,same]; exact otherMember)
    have low : entry.2 ≤ scale call.1 := by simpa using low
    have order := monotone less
    have order' := monotone bound
    omega
  refine ⟨fun call member other otherMember => ⟨fun same => ?_,fun same => ?_⟩,fun call member positive => ?_⟩
  · rcases Nat.le_total call.1 other.1 with less | less
    · exact same_value member otherMember less same
    · exact (same_value otherMember member less same.symm).symm
  · have reads := same_scale same
    rw [own member,own otherMember] at reads
    exact Option.some.inj reads
  · by_cases gap : scale (call.1 - 1) < scale call.1
    · exact .inl gap
    · have flat : scale (call.1 - 1) = scale call.1 := by
        have order := monotone (Nat.sub_le call.1 1)
        omega
      have before := (same_scale flat).trans (own member)
      obtain ⟨u,called,low,_⟩ := (lastAtMost_some increasing).mp before
      refine .inr ⟨(u,call.2),called,by dsimp only; omega,?_⟩
      exact same_value called member (by dsimp only; omega) rfl

/-- What is read from a log is the value of a call. -/
theorem zRevRangeByScore_mem {choice : TopChoice (score (M := M))} (increasing : Increasing calls) {max : Nat} {m : M}
    (read : zRevRangeByScore choice (log scale calls) max = some m) : ∃ u, (u,m) ∈ calls := by
  obtain ⟨entry,picked,rfl⟩ := Option.map_eq_some_iff.mp read
  obtain ⟨inside,_⟩ := List.mem_filter.mp (choice.pick_mem _ _ picked)
  obtain ⟨u,called,_⟩ := (mem_log increasing).mp inside
  exact ⟨u,called⟩

/-- From its last version on, a log on a scale that keeps its versions apart reads back right, also where values return. -/
theorem zRevRangeByScore_log_latest (choice : TopChoice (score (M := M))) (monotone : Monotone scale)
    (increasing : Increasing calls) (apart : ∀ call ∈ calls, ∀ other ∈ calls, call.1 < other.1 → scale call.1 < scale other.1)
    {version : Nat} (latest : ∀ call ∈ calls, call.1 ≤ version) :
    zRevRangeByScore choice (log scale calls) (scale version) = lastAtMost calls version := by
  rcases List.eq_nil_or_concat calls with rfl | ⟨front,last,rfl⟩
  · show (choice.pick []).map _ = _
    rw [choice.pick_nil]
    rfl
  · rw [List.concat_eq_append] at *
    have here : last ∈ front ++ [last] := by simp
    have below : ∀ call ∈ front, call.1 < last.1 := fun call member =>
      (List.pairwise_append.mp increasing).2.2 call member last (by simp)
    have expected : lastAtMost (front ++ [last]) version = some last.2 := by
      refine (lastAtMost_some increasing).mpr ⟨last.1,here,latest last here,fun call member _ => ?_⟩
      rcases List.mem_append.mp member with before | same
      · exact (below call before).le
      · rw [List.mem_singleton.mp same]
    have entry : (⟨last.2,scale last.1⟩ : Sigma fun _ : M => Nat) ∈
        (log scale (front ++ [last])).entries.filter fun entry => decide (entry.2 ≤ scale version) := by
      refine List.mem_filter.mpr ⟨(mem_log increasing).mpr ⟨last.1,here,rfl,fun v member => ?_⟩,?_⟩
      · rcases List.mem_append.mp member with before | same
        · exact (below _ before).le
        · rw [← List.mem_singleton.mp same]
      · simpa using monotone (latest last here)
    obtain ⟨found,picked,member,greatest⟩ := choice.pick_some entry
    obtain ⟨u,called,same,_⟩ := (mem_log increasing).mp (List.mem_filter.mp member).1
    have rank : scale last.1 ≤ scale u := by
      have order : scale last.1 ≤ found.2 := greatest
      omega
    have value : found.1 = last.2 := by
      rcases List.mem_append.mp called with before | same
      · have less := apart _ called last here (below _ before)
        dsimp only at less
        omega
      · rw [← List.mem_singleton.mp same]
    rw [expected]
    unfold zRevRangeByScore
    rw [picked,Option.map_some,value]

/-- A log reads back right at every version exactly when its calls can be told apart. -/
theorem zRevRangeByScore_log_iff (choice : TopChoice (score (M := M))) (monotone : Monotone scale)
    (increasing : Increasing calls) :
    (∀ version, zRevRangeByScore choice (log scale calls) (scale version) = lastAtMost calls version) ↔
      Separated scale calls :=
  ⟨separated_of_zRevRangeByScore choice monotone increasing,
    fun separated => zRevRangeByScore_of_separated choice monotone increasing separated⟩

omit [DecidableEq M] in
/-- On an exact scale the calls can be told apart exactly when no value returns. -/
theorem separated_exact (increasing : Increasing calls) (exactly : ∀ call ∈ calls, ∀ n ≤ call.1, scale n = n) :
    Separated scale calls ↔ (calls.map Prod.snd).Nodup := by
  have own {call : Nat × M} (member : call ∈ calls) : scale call.1 = call.1 := exactly call member call.1 le_rfl
  rw [List.Nodup,List.pairwise_map]
  constructor
  · intro separated
    refine increasing.imp_of_mem (fun {call other} member otherMember less same => ?_)
    have versions := (separated.1 call member other otherMember).mp same
    rw [own member,own otherMember] at versions
    omega
  · intro distinct
    refine ⟨fun call member other otherMember => ?_,fun call member positive => .inl ?_⟩
    · rw [own member,own otherMember]
      have apart : calls.Pairwise fun call other => call.2 = other.2 ↔ call.1 = other.1 :=
        (distinct.and increasing).imp (fun both => iff_of_false both.1 both.2.ne)
      have _ : Std.Symm fun call other : Nat × M => call.2 = other.2 ↔ call.1 = other.1 :=
        ⟨fun call other both => by rw [eq_comm,both,eq_comm]⟩
      by_cases same : call = other
      · rw [same]
        exact iff_of_true rfl rfl
      · exact apart.forall member otherMember same
    · rw [own member,exactly call member _ (Nat.sub_le _ _)]
      omega

section
variable {N : Type} {g : M → N}

omit [DecidableEq M] in
theorem lastAtMost_map (calls : List (Nat × M)) (version : Nat) :
    lastAtMost (calls.map fun call => (call.1,g call.2)) version = (lastAtMost calls version).map g := by
  unfold lastAtMost
  rw [List.filter_map,List.getLast?_map,Option.map_map,Option.map_map]
  rfl

omit [DecidableEq M] in
theorem increasing_map (increasing : Increasing calls) : Increasing (calls.map fun call => (call.1,g call.2)) :=
  List.pairwise_map.mpr increasing

omit [DecidableEq M] in
theorem separated_map (injective : Function.Injective g) :
    Separated scale (calls.map fun call => (call.1,g call.2)) ↔ Separated scale calls := by
  unfold Separated
  simp only [List.mem_map,exists_exists_and_eq_and,forall_exists_index,and_imp,forall_apply_eq_imp_iff₂,injective.eq_iff]

end
end
end FlowEmulator.SortedSet
