import DContext.Sharing.Heap

/-!
# Owners of references

A table of owners, each holding references into one heap. Whatever one of them does with its own
references, the others read what they read before, and the nodes of an owner that leaves go with
it unless others still reach them.

## Main definitions

* `rootsOf refs slots`: the references of all owners of a table
* `Stable refs Reads`: what an owner reads depends on the nodes it reaches alone
* `Represents refs Reads h slots ps`: the heap is sound, and each owner reads as its counterpart

## Main results

* `Represents.set`, `Represents.append`: an owner changes, leaves or joins
* `Represents.length_live_le`: the live nodes against what the owners reach
-/

namespace RefHeap

variable {α β γ : Type}

/-- The references of the owner in a place, if there is one. -/
def slotRefs (refs : β → Multiset Addr) (c : Option β) : Multiset Addr := c.elim 0 refs

/-- The references of all owners of a table. -/
def rootsOf (refs : β → Multiset Addr) (slots : List (Option β)) : Multiset Addr :=
  (slots.map (slotRefs refs)).sum

section roots

variable {refs : β → Multiset Addr} {slots : List (Option β)}

theorem rootsOf_cons (c : Option β) :
    rootsOf refs (c :: slots) = slotRefs refs c + rootsOf refs slots := by
  rw [rootsOf, List.map_cons, List.sum_cons, rootsOf]

theorem rootsOf_append (c : Option β) :
    rootsOf refs (slots ++ [c]) = slotRefs refs c + rootsOf refs slots := by
  rw [rootsOf, List.map_append, List.sum_append, add_comm]
  simp [rootsOf]

/-- A table is one of its places and the others. -/
theorem rootsOf_set {i : Nat} (hi : i < slots.length) (c : Option β) :
    rootsOf refs (slots.set i c) = slotRefs refs c + rootsOf refs (slots.set i none) := by
  induction slots generalizing i with
  | nil => cases hi
  | cons d slots ih =>
    cases i with
    | zero => simp [rootsOf, slotRefs]
    | succ i =>
      have hrest := ih (Nat.lt_of_succ_lt_succ hi)
      simp only [rootsOf, List.set_cons_succ, List.map_cons, List.sum_cons] at hrest ⊢
      rw [hrest, add_left_comm]

theorem rootsOf_eq {i : Nat} (hi : i < slots.length) :
    rootsOf refs slots = slotRefs refs (entry slots i) + rootsOf refs (slots.set i none) := by
  have hself : slots.set i (entry slots i) = slots := by
    have hget : entry slots i = slots[i] := by
      rw [entry, List.getElem?_eq_getElem hi]
      rfl
    rw [hget, List.set_getElem_self]
  rw [← rootsOf_set hi, hself]

theorem refs_le_rootsOf {i : Nat} {s : β} (hs : entry slots i = some s) :
    refs s ≤ rootsOf refs slots := by
  rw [rootsOf_eq (lt_of_entry hs), hs]
  exact Multiset.le_add_right _ _

/-- A reference of a table is one of some owner. -/
theorem mem_rootsOf {a : Addr} :
    a ∈ rootsOf refs slots ↔ ∃ i s, entry slots i = some s ∧ a ∈ refs s := by
  constructor
  · intro ha
    induction slots with
    | nil => simp [rootsOf] at ha
    | cons c slots ih =>
      rw [rootsOf_cons, Multiset.mem_add] at ha
      rcases ha with ha | ha
      · cases c with
        | none => simp [slotRefs] at ha
        | some s => exact ⟨0, s, rfl, ha⟩
      · obtain ⟨i, s, hs, hmem⟩ := ih ha
        exact ⟨i + 1, s, hs, hmem⟩
  · rintro ⟨i, s, hs, ha⟩
    exact Multiset.mem_of_le (refs_le_rootsOf hs) ha

/-- In a table that another owner has left, an owner still holds its references. -/
theorem refs_le_rootsOf_set_none {i j : Nat} {s : β} (hs : entry slots j = some s) (hij : i ≠ j) :
    refs s ≤ rootsOf refs (slots.set i none) := by
  rcases Nat.lt_or_ge i slots.length with hi | hi
  · refine refs_le_rootsOf (i := j) ?_
    rw [entry_set hi, if_neg hij, hs]
  · rw [List.set_eq_of_length_le hi]
    exact refs_le_rootsOf hs

end roots

/-- What an owner reads depends on the nodes that its references lead to, and on nothing else. -/
def Stable (refs : β → Multiset Addr) (Reads : Heap α → β → γ → Prop) : Prop :=
  ∀ ⦃R : Multiset Addr⦄ ⦃h h' : Heap α⦄ ⦃s : β⦄ ⦃p : γ⦄, Sound R h' → Evolves h h' →
    refs s ≤ R → Reads h s p → Reads h' s p

/-- The heap is sound for the references of the table, and each owner reads as its counterpart in
a table of values that share nothing. -/
structure Represents (refs : β → Multiset Addr) (Reads : Heap α → β → γ → Prop) (h : Heap α)
    (slots : List (Option β)) (ps : List (Option γ)) : Prop where
  sound : Sound (rootsOf refs slots) h
  length_eq : slots.length = ps.length
  reads : ∀ i, Option.Rel (Reads h) (entry slots i) (entry ps i)

namespace Represents

variable {refs : β → Multiset Addr} {Reads : Heap α → β → γ → Prop} {h h' : Heap α}
  {slots : List (Option β)} {ps : List (Option γ)}

theorem empty : Represents refs Reads ([] : Heap α) [] [] where
  sound := .empty
  length_eq := rfl
  reads _ := .none

/-- An owner sees its counterpart. -/
theorem reads_of_entry (hr : Represents refs Reads h slots ps) {i : Nat} {s : β}
    (hs : entry slots i = some s) : ∃ p, entry ps i = some p ∧ Reads h s p := by
  have hrel := hr.reads i
  rw [hs] at hrel
  cases hp : entry ps i with
  | none =>
    rw [hp] at hrel
    cases hrel
  | some p =>
    rw [hp] at hrel
    cases hrel with
    | some hreads => exact ⟨p, rfl, hreads⟩

theorem entry_eq_none (hr : Represents refs Reads h slots ps) {i : Nat}
    (hs : entry slots i = none) : entry ps i = none := by
  have hrel := hr.reads i
  rw [hs] at hrel
  cases hp : entry ps i with
  | none => rfl
  | some p =>
    rw [hp] at hrel
    cases hrel

/-- The owners whose references are kept read as before. -/
theorem reads_of_le (hstable : Stable refs Reads) {R : Multiset Addr} (hsound : Sound R h')
    (hev : Evolves h h') {c : Option β} {d : Option γ} (hle : ∀ s, c = some s → refs s ≤ R)
    (hrel : Option.Rel (Reads h) c d) : Option.Rel (Reads h') c d := by
  cases hrel with
  | none => exact .none
  | some hreads => exact .some (hstable hsound hev (hle _ rfl) hreads)

/-- **An owner acts**: it changes what it holds, or leaves, by an update of its own references. -/
theorem set (hstable : Stable refs Reads) (hr : Represents refs Reads h slots ps) {i : Nat}
    (hi : i < slots.length) {c : Option β} {d : Option γ}
    (hu : Update h (slotRefs refs (entry slots i)) h' (slotRefs refs c))
    (hread : Option.Rel (Reads h') c d) :
    Represents refs Reads h' (slots.set i c) (ps.set i d) := by
  have hsound : Sound (rootsOf refs (slots.set i c)) h' := by
    rw [rootsOf_set hi]
    apply hu.sound
    rw [← rootsOf_eq hi]
    exact hr.sound
  refine ⟨hsound, by simpa using hr.length_eq, ?_⟩
  intro j
  rw [entry_set hi, entry_set (hr.length_eq ▸ hi)]
  split_ifs with hij
  · exact hread
  · refine reads_of_le hstable hsound hu.evolves ?_ (hr.reads j)
    intro s hs
    rw [rootsOf_set hi]
    exact (refs_le_rootsOf_set_none hs hij).trans (Multiset.le_add_left _ _)

/-- **An owner joins**, with references that it made itself. -/
theorem append (hstable : Stable refs Reads) (hr : Represents refs Reads h slots ps)
    {c : Option β} {d : Option γ} (hu : Update h 0 h' (slotRefs refs c))
    (hread : Option.Rel (Reads h') c d) : Represents refs Reads h' (slots ++ [c]) (ps ++ [d]) := by
  have hsound : Sound (rootsOf refs (slots ++ [c])) h' := by
    rw [rootsOf_append]
    apply hu.sound
    rw [zero_add]
    exact hr.sound
  refine ⟨hsound, by simp [hr.length_eq], ?_⟩
  intro j
  rw [entry_append, entry_append, hr.length_eq]
  split_ifs
  · exact hread
  · refine reads_of_le hstable hsound hu.evolves ?_ (hr.reads j)
    intro s hs
    rw [rootsOf_append]
    exact (refs_le_rootsOf hs).trans (Multiset.le_add_left _ _)

/-- What the owners read, place by place. -/
theorem map_eq (hr : Represents refs Reads h slots ps) {f : β → γ}
    (hf : ∀ s p, Reads h s p → f s = p) : slots.map (Option.map f) = ps := by
  apply List.ext_getElem
  · rw [List.length_map, hr.length_eq]
  · intro i hi hi'
    have hrel := hr.reads i
    rw [List.length_map] at hi
    rw [entry, entry, List.getElem?_eq_getElem hi, List.getElem?_eq_getElem hi'] at hrel
    simp only [Option.join_some, List.getElem_map] at hrel ⊢
    generalize slots[i] = c at hrel ⊢
    generalize ps[i] = d at hrel ⊢
    cases hrel with
    | none => rfl
    | some hreads => exact congrArg some (hf _ _ hreads)

/-- The live nodes are no more than the owners reach, owner by owner. -/
theorem length_live_le (hr : Represents refs Reads h slots ps) {bound : Nat}
    (hbound : ∀ s p, Reads h s p →
      ((refs s).map fun r => (h.walk (some r)).length).sum ≤ bound) :
    h.live.length ≤ bound * (slots.countP Option.isSome) := by
  refine hr.sound.length_live_le.trans ?_
  have hslots : ∀ c ∈ slots, ((slotRefs refs c).map fun r => (h.walk (some r)).length).sum ≤
      bound * (if c.isSome then 1 else 0) := by
    intro c hc
    cases c with
    | none => simp [slotRefs]
    | some s =>
      obtain ⟨i, hi, hget⟩ := List.getElem_of_mem hc
      have hs : entry slots i = some s := by
        rw [entry, List.getElem?_eq_getElem hi, hget]
        rfl
      obtain ⟨p, -, hreads⟩ := hr.reads_of_entry hs
      simpa [slotRefs] using hbound s p hreads
  clear hr
  induction slots with
  | nil => simp [rootsOf]
  | cons c slots ih =>
    have hrest := ih fun d hd => hslots d (List.mem_cons_of_mem c hd)
    have hhead := hslots c List.mem_cons_self
    rw [rootsOf_cons, Multiset.map_add, Multiset.sum_add, List.countP_cons, Nat.mul_add]
    omega

end Represents

end RefHeap
