import Mathlib.Data.List.AList

/-!
Maps whose entries lie over a base, and maps that are collected from a list of
entries. The map that is collected has as many entries as the list exactly when
no key occurs twice in the list.
-/
namespace FlowEmulator
variable {K V : Type} [DecidableEq K]

/-- The base with the entries of a map over it. -/
def overlay (map : AList fun _ : K => V) (base : K → V) : K → V := fun key => (map.lookup key).getD (base key)

/-- The map with some entries inserted in order. -/
def collect (map : AList fun _ : K => V) (entries : List (K × V)) : AList fun _ : K => V :=
  entries.foldl (fun current entry => current.insert entry.1 entry.2) map

theorem collect_cons (map : AList fun _ : K => V) (entry : K × V) (rest : List (K × V)) :
    collect map (entry :: rest) = collect (map.insert entry.1 entry.2) rest := rfl

theorem collect_append (map : AList fun _ : K => V) (front back : List (K × V)) :
    collect map (front ++ back) = collect (collect map front) back := List.foldl_append ..

theorem mem_collect {map : AList fun _ : K => V} {entries : List (K × V)} {key : K} :
    key ∈ collect map entries ↔ key ∈ map ∨ key ∈ entries.map Prod.fst := by
  induction entries generalizing map with
  | nil => simp [collect]
  | cons entry rest ih =>
    rw [collect_cons,ih,AList.mem_insert,List.map_cons,List.mem_cons]
    constructor
    · rintro ((here | old) | later)
      · exact .inr (.inl here)
      · exact .inl old
      · exact .inr (.inr later)
    · rintro (old | here | later)
      · exact .inl (.inr old)
      · exact .inl (.inl here)
      · exact .inr later

theorem lookup_collect_absent {map : AList fun _ : K => V} {entries : List (K × V)} {key : K}
    (absent : key ∉ entries.map Prod.fst) : (collect map entries).lookup key = map.lookup key := by
  induction entries generalizing map with
  | nil => rfl
  | cons entry rest ih =>
    rw [List.map_cons,List.mem_cons,not_or] at absent
    rw [collect_cons,ih absent.2,AList.lookup_insert_ne absent.1]

/-- An entry is found when its key occurs once. -/
theorem lookup_collect {map : AList fun _ : K => V} {entries : List (K × V)} (distinct : (entries.map Prod.fst).Nodup)
    {key : K} {value : V} (member : (key,value) ∈ entries) : (collect map entries).lookup key = some value := by
  induction entries generalizing map with
  | nil => cases member
  | cons entry rest ih =>
    rw [List.map_cons,List.nodup_cons] at distinct
    rw [collect_cons]
    rcases List.mem_cons.mp member with rfl | later
    · rw [lookup_collect_absent distinct.1,AList.lookup_insert]
    · exact ih distinct.2 later

/-- The last entry for a key is found. -/
theorem lookup_collect_last (map : AList fun _ : K => V) (front : List (K × V)) {back : List (K × V)} {key : K}
    (value : V) (last : key ∉ back.map Prod.fst) :
    (collect map (front ++ (key,value) :: back)).lookup key = some value := by
  rw [collect_append,collect_cons,lookup_collect_absent last]
  exact AList.lookup_insert _

/-- Two lists taken together place by place: a key that is there once has the value at its place. -/
theorem lookup_collect_zip (map : AList fun _ : K => V) {keys : List K} {values : List V} {i : Nat} {key : K} {value : V}
    (here : keys[i]? = some key) (there : values[i]? = some value) (once : ∀ j : Nat, keys[j]? = some key → j = i) :
    (collect map (keys.zip values)).lookup key = some value := by
  obtain ⟨inKeys,rfl⟩ := List.getElem?_eq_some_iff.mp here
  obtain ⟨inValues,rfl⟩ := List.getElem?_eq_some_iff.mp there
  have inside : i < (keys.zip values).length := by rw [List.length_zip]; omega
  have pair : (keys.zip values)[i] = (keys[i],values[i]) := List.getElem_zip
  rw [← List.take_append_drop i (keys.zip values),List.drop_eq_getElem_cons inside,pair]
  refine lookup_collect_last map _ _ (fun later => ?_)
  rw [List.map_drop] at later
  obtain ⟨k,place⟩ := List.mem_iff_getElem?.mp later
  rw [List.getElem?_drop] at place
  obtain ⟨far,same⟩ := List.getElem?_eq_some_iff.mp place
  have inRange : i+1+k < keys.length := by simp at far; omega
  rw [List.getElem_map,List.getElem_zip] at same
  have := once (i+1+k) ((List.getElem?_eq_getElem inRange).trans (congrArg some same))
  omega

/-- What is found was there before or is an entry. -/
theorem collect_found {map : AList fun _ : K => V} {entries : List (K × V)} {key : K} {value : V}
    (found : (collect map entries).lookup key = some value) : map.lookup key = some value ∨ (key,value) ∈ entries := by
  induction entries generalizing map with
  | nil => exact .inl found
  | cons entry rest ih =>
    rcases ih found with before | later
    · by_cases same : key = entry.1
      · subst same
        rw [AList.lookup_insert] at before
        cases before
        exact .inr List.mem_cons_self
      · rw [AList.lookup_insert_ne same] at before
        exact .inl before
    · exact .inr (List.mem_cons_of_mem _ later)

theorem length_insert (map : AList fun _ : K => V) (key : K) (value : V) :
    (map.insert key value).entries.length = if key ∈ map then map.entries.length else map.entries.length+1 := by
  have keys (any : AList fun _ : K => V) : any.entries.length = any.keys.length := by simp [AList.keys,List.keys]
  rw [keys,keys,AList.keys_insert,List.length_cons]
  split
  · next here =>
    have positive : 0 < map.keys.length := List.length_pos_of_mem (AList.mem_keys.mp here)
    rw [List.length_erase_of_mem (AList.mem_keys.mp here)]
    omega
  · next absent => rw [List.erase_of_not_mem (fun here => absent (AList.mem_keys.mpr here))]

theorem length_insert_le (map : AList fun _ : K => V) (key : K) (value : V) :
    (map.insert key value).entries.length ≤ map.entries.length+1 := by
  rw [length_insert]
  split <;> omega

theorem length_collect_le (map : AList fun _ : K => V) (entries : List (K × V)) :
    (collect map entries).entries.length ≤ map.entries.length+entries.length := by
  induction entries generalizing map with
  | nil => exact Nat.le_refl _
  | cons entry rest ih =>
    have first := length_insert_le map entry.1 entry.2
    have later := ih (map.insert entry.1 entry.2)
    rw [collect_cons,List.length_cons]
    omega

theorem length_collect (map : AList fun _ : K => V) (entries : List (K × V)) :
    (collect map entries).entries.length = map.entries.length+entries.length ↔
      (entries.map Prod.fst).Nodup ∧ ∀ key ∈ entries.map Prod.fst, key ∉ map := by
  induction entries generalizing map with
  | nil => simp [collect]
  | cons entry rest ih =>
    rw [collect_cons,List.map_cons,List.nodup_cons,List.length_cons]
    by_cases here : entry.1 ∈ map
    · have short := length_collect_le (map.insert entry.1 entry.2) rest
      rw [length_insert,if_pos here] at short
      constructor
      · intro full; omega
      · rintro ⟨_,apart⟩
        exact absurd here (apart entry.1 List.mem_cons_self)
    · have count := ih (map.insert entry.1 entry.2)
      rw [length_insert,if_neg here] at count
      have shift : map.entries.length+(rest.length+1) = map.entries.length+1+rest.length := by omega
      rw [shift,count]
      constructor
      · rintro ⟨distinct,apart⟩
        refine ⟨⟨fun again => apart entry.1 again ((AList.mem_insert map).mpr (.inl rfl)),distinct⟩,?_⟩
        intro key member old
        rcases List.mem_cons.mp member with rfl | later
        · exact here old
        · exact apart key later ((AList.mem_insert map).mpr (.inr old))
      · rintro ⟨⟨fresh,distinct⟩,apart⟩
        refine ⟨distinct,fun key later old => ?_⟩
        rcases (AList.mem_insert map).mp old with rfl | before
        · exact fresh later
        · exact apart key (List.mem_cons_of_mem _ later) before

end FlowEmulator
