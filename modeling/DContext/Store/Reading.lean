import DContext.Store.ContextStore
import DContext.Overlay.CappedStack

/-!
# Reading a store through its layers

The two traversals of a store, `get_value` and `collect_values`, read the same layers: the active
scope, the chain above the barrier, and the frozen parent when there is no barrier. The scope
chain lists the names of the same layers.

## Main definitions

* `visibleMaps s`: the layers a store reads, innermost first
* `ownFrames s`, `inheritedFrames s`: the store's own scopes and those of its frozen parent
* `mergeWith s source`: `merge_with` into `s`
* `overwrite s n`: the active scope overwritten by a map, as by a write and by a merge

## Main results

* `getValue_eq_layered`, `collectValues_eq_flatten`: both traversals read the visible layers
* `lookup_collectValues`: the collected values are the lookups
* `foldl_setValue`: merging value by value, in any order
-/

namespace DContext

open Overlay

variable {U : TypeUniverse}

/-- A node as an overlay frame. -/
def ScopeNode.frame (n : ScopeNode U) : Frame Key String (ContextValue U) := ⟨n.name, n.values⟩

namespace ContextStore

/-- The layers a store reads, innermost first. -/
def visibleMaps (s : ContextStore U) : List (ValueMap U) :=
  s.currentValues ::
    ((s.chain.takeWhile fun n => s.scopeBarrier.getD 0 < n.depth) ++
      if s.scopeBarrier.isNone then s.frozenParent else []).map ScopeNode.values

/-- The active scope and its chain, as overlay frames. -/
def ownFrames (s : ContextStore U) : List (Frame Key String (ContextValue U)) :=
  ⟨s.currentName, s.currentValues⟩ :: s.chain.map ScopeNode.frame

/-- The frozen parent, as overlay frames. -/
def inheritedFrames (s : ContextStore U) : List (Frame Key String (ContextValue U)) :=
  s.frozenParent.map ScopeNode.frame

theorem lookupAbove_eq (barrier : Nat) (key : Key) (ns : List (ScopeNode U)) :
    lookupAbove barrier key ns =
      layered ((ns.takeWhile fun n => barrier < n.depth).map ScopeNode.values) key := by
  induction ns with
  | nil => rfl
  | cons n parent ih =>
    rw [lookupAbove]
    by_cases h : barrier < n.depth
    · rw [if_neg (Nat.not_le.mpr h), List.takeWhile_cons_of_pos (by simpa using h), List.map_cons,
        layered_cons, ← ih]
      cases n.values.lookup key <;> rfl
    · rw [if_pos (Nat.not_lt.mp h), List.takeWhile_cons_of_neg (by simpa using h)]
      rfl

theorem lookupFrozen_eq (key : Key) (ns : List (ScopeNode U)) :
    lookupFrozen key ns = layered (ns.map ScopeNode.values) key := by
  induction ns with
  | nil => rfl
  | cons n parent ih =>
    rw [lookupFrozen, List.map_cons, layered_cons, ← ih]
    cases n.values.lookup key <;> rfl

/-- **`get_value` reads the visible layers**, the first hit winning. -/
theorem getValue_eq_layered (s : ContextStore U) (key : Key) :
    s.getValue key = layered s.visibleMaps key := by
  unfold getValue visibleMaps
  rw [layered_cons, List.map_append, layered_append, ← lookupAbove_eq]
  cases s.currentValues.lookup key with
  | some v => rfl
  | none =>
    cases lookupAbove (s.scopeBarrier.getD 0) key s.chain with
    | some v => rfl
    | none =>
      cases s.scopeBarrier with
      | some b => rfl
      | none => exact lookupFrozen_eq key s.frozenParent

theorem collectAbove_eq (barrier : Nat) (ns : List (ScopeNode U)) (result : ValueMap U) :
    collectAbove barrier ns result =
      result ∪ flatten ((ns.takeWhile fun n => barrier < n.depth).map ScopeNode.values) := by
  induction ns generalizing result with
  | nil => exact Finmap.union_empty.symm
  | cons n parent ih =>
    rw [collectAbove]
    by_cases h : barrier < n.depth
    · rw [if_neg (Nat.not_le.mpr h), List.takeWhile_cons_of_pos (by simpa using h), List.map_cons,
        flatten_cons, ih, Finmap.union_assoc]
    · rw [if_pos (Nat.not_lt.mp h), List.takeWhile_cons_of_neg (by simpa using h)]
      exact Finmap.union_empty.symm

theorem collectFrozen_eq (ns : List (ScopeNode U)) (result : ValueMap U) :
    collectFrozen ns result = result ∪ flatten (ns.map ScopeNode.values) := by
  induction ns generalizing result with
  | nil => exact Finmap.union_empty.symm
  | cons n parent ih => rw [collectFrozen, ih, List.map_cons, flatten_cons, Finmap.union_assoc]

/-- **`collect_values` merges the visible layers**, an inner one winning. -/
theorem collectValues_eq_flatten (s : ContextStore U) :
    s.collectValues = flatten s.visibleMaps := by
  unfold collectValues visibleMaps
  dsimp only
  rw [flatten_cons, List.map_append, flatten_append, ← Finmap.union_assoc, ← collectAbove_eq]
  cases s.scopeBarrier with
  | some b => exact Finmap.union_empty.symm
  | none => exact collectFrozen_eq _ _

/-- **The collected values are the lookups**, for every store. -/
theorem lookup_collectValues (s : ContextStore U) (key : Key) :
    s.collectValues.lookup key = s.getValue key := by
  rw [collectValues_eq_flatten, lookup_flatten, getValue_eq_layered]

theorem truncateChain_eq_keepLast (maxLen : Nat) (chain : List String) :
    truncateChain maxLen chain = keepLast maxLen chain := by
  unfold truncateChain
  split_ifs with h
  · rw [keepLast_pos h.1]
    rfl
  · rcases Nat.eq_zero_or_pos maxLen with rfl | hpos
    · rw [keepLast_zero]
    · rw [keepLast_of_length_le (by omega)]

/-- A scope chain is within the limit. -/
theorem keepLast_scopeChain (maxLen : Nat) (s : ContextStore U) :
    keepLast maxLen (s.scopeChain maxLen) = s.scopeChain maxLen := by
  unfold scopeChain
  rw [truncateChain_eq_keepLast, keepLast_keepLast]

/-- A store made from values shows them. -/
theorem getValue_fromValuesWithChain (values : ValueMap U) (remoteChain : List String)
    (key : Key) : (fromValuesWithChain values remoteChain).getValue key = values.lookup key := by
  rw [getValue_eq_layered, fromValuesWithChain, visibleMaps]
  simp

/-! ## Merging -/

/-- `merge_with`: one `set_value` for each effective value of the source. -/
def mergeWith (s source : ContextStore U) : ContextStore U :=
  { s with currentValues := s.currentValues.extend source.collectValues }

/-- The store with its active scope overwritten by the entries of `n`. -/
def overwrite (s : ContextStore U) (n : ValueMap U) : ContextStore U :=
  { s with currentValues := s.currentValues.extend n }

theorem setValue_eq_overwrite (s : ContextStore U) (key : Key) (value : ContextValue U) :
    s.setValue key value = s.overwrite (Finmap.singleton key value) := rfl

theorem mergeWith_eq_overwrite (s source : ContextStore U) :
    s.mergeWith source = s.overwrite source.collectValues := rfl

/-- Setting the values of a map one by one, in any order of iteration. -/
theorem foldl_setValue {m : ValueMap U} {l : List (Σ _ : Key, ContextValue U)}
    (hl : Enumerates l m) (s : ContextStore U) :
    l.foldl (fun s e => s.setValue e.1 e.2) s =
      { s with currentValues := s.currentValues.extend m } := by
  suffices h : ∀ s : ContextStore U,
      l.foldl (fun s e => s.setValue e.1 e.2) s =
        { s with currentValues := l.foldl (fun m e => m.insert e.1 e.2) s.currentValues } by
    rw [h]
    congr 1
    apply Finmap.ext_lookup
    intro k
    rw [Map.lookup_extend, lookup_foldl_insert hl]
  intro s
  clear hl
  induction l generalizing s with
  | nil => rfl
  | cons e l ih => rw [List.foldl_cons, ih, List.foldl_cons, setValue]

end ContextStore

end DContext
