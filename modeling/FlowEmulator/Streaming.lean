import FlowEmulator.Run
import Mathlib.Data.List.Infix

/-!
Responses from a source that grows, one for each height a caller asks for. The
source steps on its own meanwhile, so an item is read with several looks at a
source that may have changed in between. If the source only adds items, every
response is the item of its height, or says that there was none yet; so a caller
that asks for one height after the other gets the items in order and without a
gap, whoever it is and whenever it asks.
-/
namespace FlowEmulator.Streaming

/-- What a caller is told about a height. -/
inductive Answer (α : Type) where
  | item (a : α)
  | notReady
  | failed

/-- The looks at a source that it takes to know something. -/
inductive Reading (σ β : Type) where
  | done (b : β)
  | look (next : σ → Reading σ β)

namespace Reading
variable {σ β : Type}

/-- What is known in the end where the source does not change between the looks. -/
def run (s : σ) : Reading σ β → β
  | .done b => b
  | .look next => (next s).run s

/-- One look. -/
def once (read : σ → β) : Reading σ β := .look fun s => .done (read s)

end Reading

section
variable {σ α β ι : Type} (step : ι → σ → σ) (Allowed : σ → ι → Prop)

/-- A reading that was made, from the source it began with to the one it ended
    with. The source makes allowed steps, before and between the looks. -/
inductive Reads : Reading σ β → σ → β → σ → Prop
  | done (b : β) (s : σ) : Reads (.done b) s b s
  | look {next : σ → Reading σ β} {s last : σ} {b : β} (rest : Reads (next s) s b last) : Reads (.look next) s b last
  | step {r : Reading σ β} {s last : σ} {b : β} (i : ι) (allowed : Allowed s i) (rest : Reads r (step i s) b last) :
      Reads r s b last

/-- The source need not step while it is read. -/
theorem reads_run (r : Reading σ β) (s : σ) : Reads step Allowed r s (r.run s) s := by
  induction r with
  | done b => exact .done b s
  | look next ih => exact .look (ih s)

/-- The responses to a caller, with the heights it asked for in whatever order.
    The source makes allowed steps within and between them. -/
inductive Serves (reading : Nat → Reading σ (Answer α)) : σ → List (Nat × Answer α) → σ → Prop
  | nil (s : σ) : Serves reading s [] s
  | ask {s middle last : σ} {height : Nat} {answer : Answer α} {rest : List (Nat × Answer α)}
      (reads : Reads step Allowed (reading height) s answer middle) (later : Serves reading middle rest last) :
      Serves reading s ((height,answer) :: rest) last
  | step {s last : σ} {responses : List (Nat × Answer α)} (i : ι) (allowed : Allowed s i)
      (later : Serves reading (step i s) responses last) : Serves reading s responses last

end

/-- The items among some responses, with their heights. -/
def received {α : Type} (responses : List (Nat × Answer α)) : List (Nat × α) :=
  responses.filterMap fun
    | (height,.item a) => some (height,a)
    | _ => none

/-! ### Sources that only add items -/

section
variable {σ α ι : Type} (Good : σ → Prop) (Later : σ → σ → Prop) (items : σ → List α)

/-- A reading that ends in one way, whatever becomes of the source between the looks. -/
inductive Settles {β : Type} : Reading σ β → σ → β → Prop
  | done (b : β) (s : σ) : Settles (.done b) s b
  | look {next : σ → Reading σ β} {s : σ} {b : β} (same : ∀ later, Later s later → next later = next s)
      (rest : Settles (next s) s b) : Settles (.look next) s b

/-- The source only adds items. A reading gives the item of its height, and is told
    at its first look where there is none. -/
structure Feeds (Allowed : σ → ι → Prop) (step : ι → σ → σ) (reading : Nat → Reading σ (Answer α)) : Prop where
  trans : ∀ {s later last}, Later s later → Later later last → Later s last
  steps : ∀ i s, Good s → Allowed s i → Later s (step i s)
  good : ∀ {s later}, Good s → Later s later → Good later
  grows : ∀ {s later}, Good s → Later s later → items s <+: items later
  present : ∀ {s height a}, Good s → (items s)[height]? = some a → Settles Later (reading height) s (.item a)
  absent : ∀ {s height}, Good s → (items s).length ≤ height →
    ∃ next, reading height = .look next ∧ next s = .done .notReady

/-- What a response says: the item of its height, which is there from then on, or
    that there was none when it was asked for. -/
def Tells (s last : σ) (height : Nat) : Answer α → Prop
  | .item a => (items last)[height]? = some a
  | .notReady => (items s).length ≤ height
  | .failed => False

/-- The responses to a caller follow the source: each tells of it, and those for
    one height after the other give the items from the first height on. -/
structure Follows (s : σ) (responses : List (Nat × Answer α)) (last : σ) : Prop where
  grows : items s <+: items last
  tells : ∀ response ∈ responses, Tells items s last response.1 response.2
  inOrder : ∀ first count, (received responses).map Prod.fst = List.range' first count →
    (received responses).map Prod.snd = ((items last).drop first).take count

end

section
variable {σ α ι : Type} {Good : σ → Prop} {Later : σ → σ → Prop} {items : σ → List α} {Allowed : σ → ι → Prop}
  {step : ι → σ → σ} {reading : Nat → Reading σ (Answer α)} {s later last : σ} {a : α}
  {height : Nat} {answer : Answer α} {responses : List (Nat × Answer α)}

section
variable {β : Type} {b : β} {r : Reading σ β}

theorem settles_later (trans : ∀ {s later last}, Later s later → Later later last → Later s last)
    (leads : Settles Later r s b) (after : Later s later) : Settles Later r later b := by
  induction leads with
  | done b s => exact .done b later
  | @look next s b same rest ih =>
    have here := same later after
    refine .look (fun last lastAfter => ?_) ?_
    · rw [here,same last (trans after lastAfter)]
    · rw [here]
      exact ih after

/-- One look at something that stays. -/
theorem settles_once {read : σ → β} (now : read s = b) (same : ∀ later, Later s later → read later = b) :
    Settles Later (.once read) s b := by
  refine .look (fun later after => ?_) ?_
  · rw [now,same later after]
  · rw [now]
    exact .done b s

end

/-- An item stays where it is when others are added. -/
theorem item_stays {old new : List α} (isFront : old <+: new) {height : Nat} (here : old[height]? = some a) :
    new[height]? = some a := by
  obtain ⟨more,rfl⟩ := isFront
  rw [List.getElem?_append_left (List.getElem?_eq_some_iff.mp here).1,here]

theorem tells_later {first : σ} (before : items first <+: items s) (after : items last <+: items later)
    (tells : Tells items s last height answer) : Tells items first later height answer := by
  cases answer with
  | item a => exact item_stays after tells
  | notReady => exact before.length_le.trans tells
  | failed => exact tells

section
variable (feeds : Feeds Good Later items Allowed step reading)
include feeds

/-- A reading that ends in one way ends so, whatever steps come between its looks. -/
theorem reads_settled {β : Type} {r : Reading σ β} {b c : β} (reads : Reads step Allowed r s b last) (good : Good s)
    (settles : Settles Later r s c) : b = c ∧ Good last ∧ items s <+: items last := by
  induction reads with
  | done b s =>
    cases settles
    exact ⟨rfl,good,List.prefix_rfl⟩
  | look rest ih =>
    cases settles with
    | look same next => exact ih good next
  | @step r s last b i allowed rest ih =>
    have after := feeds.steps i s good allowed
    obtain ⟨same,goodLast,grows⟩ := ih (feeds.good good after) (settles_later feeds.trans settles after)
    exact ⟨same,goodLast,(feeds.grows good after).trans grows⟩

/-- The first look decides: there is an item and the reading gets it, or there is none. -/
theorem first_look (good : Good s) (height : Nat) :
    (∃ a, (items s)[height]? = some a ∧ Settles Later (reading height) s (.item a)) ∨
      (items s).length ≤ height ∧ ∃ next, reading height = .look next ∧ next s = .done .notReady := by
  cases here : (items s)[height]? with
  | some a => exact .inl ⟨a,rfl,feeds.present good here⟩
  | none =>
    have outside := List.getElem?_eq_none_iff.mp here
    exact .inr ⟨outside,feeds.absent good outside⟩

/-- Whatever steps come before and between the looks of a response, it tells of the source. -/
theorem reads_tells (reads : Reads step Allowed (reading height) s answer last) (good : Good s) :
    Good last ∧ items s <+: items last ∧ Tells items s last height answer := by
  generalize asked : reading height = r at reads
  induction reads with
  | done b s =>
    rcases first_look feeds good height with ⟨a,here,settles⟩ | ⟨_,next,look,_⟩
    · rw [asked] at settles
      cases settles
      exact ⟨good,List.prefix_rfl,here⟩
    · rw [asked] at look
      cases look
  | @look next s last b rest ih =>
    rcases first_look feeds good height with ⟨a,here,settles⟩ | ⟨none,other,look,unready⟩
    · rw [asked] at settles
      obtain ⟨rfl,goodLast,grows⟩ := reads_settled feeds (.look rest) good settles
      exact ⟨goodLast,grows,item_stays grows here⟩
    · rw [asked] at look
      cases look
      rw [unready] at rest
      obtain ⟨rfl,goodLast,grows⟩ := reads_settled feeds rest good (.done _ s)
      exact ⟨goodLast,grows,none⟩
  | @step r s last b i allowed rest ih =>
    have after := feeds.steps i s good allowed
    have grows := feeds.grows good after
    obtain ⟨goodLast,more,tells⟩ := ih (feeds.good good after) asked
    exact ⟨goodLast,grows.trans more,tells_later grows List.prefix_rfl tells⟩

theorem serves_tells (serves : Serves step Allowed reading s responses last) (good : Good s) :
    items s <+: items last ∧ ∀ response ∈ responses, Tells items s last response.1 response.2 := by
  induction serves with
  | nil s => exact ⟨List.prefix_rfl,by simp⟩
  | ask reads later ih =>
    obtain ⟨goodMiddle,grows,tells⟩ := reads_tells feeds reads good
    obtain ⟨more,others⟩ := ih goodMiddle
    refine ⟨grows.trans more,fun response member => ?_⟩
    rcases List.mem_cons.mp member with rfl | member
    · exact tells_later List.prefix_rfl more tells
    · exact tells_later grows List.prefix_rfl (others response member)
  | @step s last responses i allowed later ih =>
    have after := feeds.steps i s good allowed
    have grows := feeds.grows good after
    obtain ⟨more,others⟩ := ih (feeds.good good after)
    exact ⟨grows.trans more,fun response member => tells_later grows List.prefix_rfl (others response member)⟩

omit feeds in
/-- Items that are each at its own height, and for one height after the other. -/
theorem inOrder_items {list : List α} {got : List (Nat × α)} (placed : ∀ pair ∈ got, list[pair.1]? = some pair.2)
    {first count : Nat} (heights : got.map Prod.fst = List.range' first count) :
    got.map Prod.snd = (list.drop first).take count := by
  induction got generalizing first count with
  | nil =>
    cases count with
    | zero => simp
    | succ count => cases heights
  | cons pair rest ih =>
    cases count with
    | zero => cases heights
    | succ count =>
      rw [List.map_cons,List.range'_succ,List.cons.injEq] at heights
      obtain ⟨here,others⟩ := heights
      have found := placed pair List.mem_cons_self
      rw [here] at found
      obtain ⟨low,item⟩ := List.getElem?_eq_some_iff.mp found
      rw [List.drop_eq_getElem_cons low,List.take_succ_cons,List.map_cons,item,
        ih (fun other member => placed other (List.mem_cons_of_mem pair member)) others]

/-- Whatever a caller asks for and whenever, and whatever the source does meanwhile, the responses follow the source. -/
theorem serves_follows (serves : Serves step Allowed reading s responses last) (good : Good s) :
    Follows items s responses last := by
  obtain ⟨grows,tells⟩ := serves_tells feeds serves good
  refine ⟨grows,tells,fun first count heights => inOrder_items (fun pair member => ?_) heights⟩
  obtain ⟨⟨height,answer⟩,among,isItem⟩ := List.mem_filterMap.mp member
  have told := tells _ among
  cases answer with
  | item a =>
    cases isItem
    exact told
  | notReady => cases isItem
  | failed => cases isItem

end
end
end FlowEmulator.Streaming
