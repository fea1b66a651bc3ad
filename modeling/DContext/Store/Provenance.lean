import DContext.Overlay.Entries
import DContext.Store.Snapshot

/-!
# Where the values of a store come from

No operation of a store makes a value of its own: what a store holds, hidden values included, was
written, merged in, or in the snapshot it was made from. So a condition on keys and values that
all writes meet is met by all that is held.

## Main definitions

* `ContextStore.HoldsOnly Q s`: every value in a scope or a frozen parent of `s` meets `Q`

## Main results

* `HoldsOnly.pushScope`, `HoldsOnly.popScope`, ...: every operation
* `HoldsOnly.getValue`: what is read
* `HoldsOnly.capture`, `HoldsOnly.ofSnapshot`: snapshots of a store, and stores of a snapshot
-/

namespace DContext

open Overlay

variable {U : TypeUniverse}

namespace ContextStore

/-- Every value that the store holds, visible or not, meets the condition. -/
structure HoldsOnly (Q : Key → ContextValue U → Prop) (s : ContextStore U) : Prop where
  current : s.currentValues.All Q
  chain : ∀ n ∈ s.chain, n.values.All Q
  frozen : ∀ n ∈ s.frozenParent, n.values.All Q

namespace HoldsOnly

variable {Q : Key → ContextValue U → Prop} {s : ContextStore U}

theorem mono (h : s.HoldsOnly Q) {Q' : Key → ContextValue U → Prop}
    (hQ : ∀ key value, Q key value → Q' key value) : s.HoldsOnly Q' where
  current := h.current.mono hQ
  chain n hn := (h.chain n hn).mono hQ
  frozen n hn := (h.frozen n hn).mono hQ

/-- What is read is held. -/
theorem getValue (h : s.HoldsOnly Q) {key : Key} {value : ContextValue U}
    (hvalue : s.getValue key = some value) : Q key value := by
  rw [getValue_eq_layered] at hvalue
  refine Map.All.layered ?_ hvalue
  intro m hm
  rcases List.mem_cons.mp hm with rfl | hm
  · exact h.current
  · obtain ⟨n, hn, rfl⟩ := List.mem_map.mp hm
    rcases List.mem_append.mp hn with hn | hn
    · exact h.chain n (List.takeWhile_subset _ hn)
    · split_ifs at hn
      · exact h.frozen n hn
      · cases hn

theorem collectValues (h : s.HoldsOnly Q) : s.collectValues.All Q := by
  intro key value hvalue
  rw [lookup_collectValues] at hvalue
  exact h.getValue hvalue

theorem fromValuesWithChain {values : ValueMap U} (h : values.All Q)
    (remoteChain : List String) : (fromValuesWithChain values remoteChain).HoldsOnly Q where
  current := h
  chain _ hn := by cases hn
  frozen _ hn := by cases hn

theorem new : (new : ContextStore U).HoldsOnly Q where
  current := .empty
  chain _ hn := by cases hn
  frozen _ hn := by cases hn

theorem forkChild (h : s.HoldsOnly Q) : s.forkChild.HoldsOnly Q where
  current := .empty
  chain _ hn := by cases hn
  frozen := List.forall_mem_cons.mpr ⟨h.current, h.chain⟩

theorem overwrite (h : s.HoldsOnly Q) {m : ValueMap U} (hm : m.All Q) :
    (s.overwrite m).HoldsOnly Q where
  current := h.current.extend hm
  chain := h.chain
  frozen := h.frozen

theorem setValue (h : s.HoldsOnly Q) {key : Key} {value : ContextValue U} (hvalue : Q key value) :
    (s.setValue key value).HoldsOnly Q where
  current := h.current.insert hvalue
  chain := h.chain
  frozen := h.frozen

theorem pushScope (h : s.HoldsOnly Q) (registry : Registry U) (name : Option String) :
    (s.pushScope registry name).1.HoldsOnly Q := by
  rcases Nat.lt_or_ge maxScopeDepth s.depth with hd | hd
  · rw [pushScope_of_lt registry name hd]
    exact ⟨h.current, h.chain, h.frozen⟩
  · rw [pushScope_of_le registry name hd]
    refine ⟨Map.All.collect ?_, List.forall_mem_cons.mpr ⟨h.current, h.chain⟩, h.frozen⟩
    intro key value hvalue
    exact h.getValue hvalue

/-- The loop of `pop_scope` moves values out of nodes that were held. The induction is on the
chain. -/
theorem popLoop (shared : List (ScopeNode U) → Bool) (e : Nat) (ns : List (ScopeNode U)) :
    ∀ (s : ContextStore U) (old : Option (ValueMap U)), (∀ n ∈ ns, n.values.All Q) →
      s.HoldsOnly Q → (popLoop shared e ns s old).1.HoldsOnly Q := by
  induction ns with
  | nil =>
    intro s old _ h
    exact ⟨h.current, h.chain, h.frozen⟩
  | cons n parent ih =>
    intro s old hns h
    obtain ⟨hn, hparent⟩ := List.forall_mem_cons.mp hns
    rw [ContextStore.popLoop, restoreShared_eq, ite_self]
    split_ifs
    · exact ih _ _ hparent ⟨hn, hparent, h.frozen⟩
    · exact ⟨h.current, h.chain, h.frozen⟩

theorem popScope (h : s.HoldsOnly Q) (shared : List (ScopeNode U) → Bool) (e : Nat) :
    (s.popScope shared e).1.HoldsOnly Q := by
  unfold ContextStore.popScope
  split_ifs
  · exact h
  · exact popLoop shared e s.chain s none h.chain h

end HoldsOnly

end ContextStore

/-- A capture takes its values from the store. -/
theorem ContextStore.HoldsOnly.capture {Q : Key → ContextValue U → Prop} {s : ContextStore U}
    (h : s.HoldsOnly Q) (maxLen : Nat) (registry : Registry U) :
    (captureWithRegistry maxLen s registry).values.All Q :=
  h.collectValues.filter _

/-- A store made from a snapshot takes its values from it. -/
theorem ContextStore.HoldsOnly.ofSnapshot {Q : Key → ContextValue U → Prop}
    {snap : ContextSnapshot U} (h : snap.values.All Q) (registry : Registry U) :
    (storeFromSnapshotWithRegistry snap registry).HoldsOnly Q :=
  .fromValuesWithChain (h.filter _) snap.scopeChain

end DContext
