import DContext.Store.WellFormed

/-!
# Who owns the stored values

A stored value is in an `Arc`, and is dropped when its last reference goes away. A value comes
with the identity of its allocation here, so the references a store owns are a set of identities.

## Main definitions

* `arcTypes U`: the types of a program, with an allocation for each value
* `ContextStore.arcs s`: the allocations that a store keeps alive
* `ContextStore.without s n`: the store with the keys of a map removed from its active scope
* `ContextStore.poppedFrames e s`: the scopes that a pop removes

## Main results

* `arcs_overwrite`, `arcs_eq_without`: what an overwritten scope still owns, and what it owned
* `ownFrames_eq_poppedFrames_append`, `garbage_popScope`: what a pop removes, and what it hands
  over as garbage
-/

namespace DContext

open Overlay

variable {U : TypeUniverse}

/-- The types of a program, each value together with the identity of the `Arc` it is in. -/
def arcTypes (U : TypeUniverse) : TypeUniverse where
  TypeId := U.TypeId
  decEq := U.decEq
  El t := Nat × U.El t
  typeName := U.typeName
  default t := (0, U.default t)
  serialize t v := U.serialize t v.2
  deserialize t bytes := (U.deserialize t bytes).map fun v => (0, v)
  readErrorText := U.readErrorText
  versionOrder := U.versionOrder
  versionOrder_enumerates := U.versionOrder_enumerates

/-- The allocation of a value. -/
def arcOf {t : (arcTypes U).TypeId} (v : (arcTypes U).El t) : Nat :=
  let v : Nat × U.El t := v
  v.1

/-- The value in the allocation. -/
def derefOf {t : (arcTypes U).TypeId} (v : (arcTypes U).El t) : U.El t :=
  let v : Nat × U.El t := v
  v.2

def ContextValue.arc (v : ContextValue (arcTypes U)) : Nat := arcOf v.val

/-! ## The references of maps and frames -/

/-- The allocations of the values of a map. -/
def arcsOf (m : ValueMap (arcTypes U)) : Finset Nat :=
  (m.entries.map fun e => e.2.arc).toFinset

theorem mem_arcsOf {m : ValueMap (arcTypes U)} {a : Nat} :
    a ∈ arcsOf m ↔ ∃ k v, m.lookup k = some v ∧ v.arc = a := by
  simp only [arcsOf, Multiset.mem_toFinset, Multiset.mem_map, Finmap.lookup_eq_some_iff]
  constructor
  · rintro ⟨⟨k, v⟩, he, ha⟩
    exact ⟨k, v, he, ha⟩
  · rintro ⟨k, v, he, ha⟩
    exact ⟨⟨k, v⟩, he, ha⟩

/-- The allocations of the values of some frames. -/
def frameArcs (fs : List (Frame Key String (ContextValue (arcTypes U)))) : Finset Nat :=
  fs.foldr (fun f acc => arcsOf f.values ∪ acc) ∅

@[simp] theorem frameArcs_nil :
    frameArcs ([] : List (Frame Key String (ContextValue (arcTypes U)))) = ∅ := rfl

@[simp] theorem frameArcs_cons (f : Frame Key String (ContextValue (arcTypes U)))
    (fs : List (Frame Key String (ContextValue (arcTypes U)))) :
    frameArcs (f :: fs) = arcsOf f.values ∪ frameArcs fs := rfl

theorem frameArcs_append (fs gs : List (Frame Key String (ContextValue (arcTypes U)))) :
    frameArcs (fs ++ gs) = frameArcs fs ∪ frameArcs gs := by
  induction fs with
  | nil => simp
  | cons f fs ih => rw [List.cons_append, frameArcs_cons, frameArcs_cons, ih, Finset.union_assoc]

namespace ContextStore

/-- The allocations that a store keeps alive: those of its own scopes and of its frozen parent. -/
def arcs (s : ContextStore (arcTypes U)) : Finset Nat :=
  frameArcs (s.ownFrames ++ s.inheritedFrames)

/-- What the frames below the active scope keep alive. -/
def arcsBelow (s : ContextStore (arcTypes U)) : Finset Nat :=
  frameArcs (s.ownFrames.tail ++ s.inheritedFrames)

theorem arcs_eq (s : ContextStore (arcTypes U)) :
    s.arcs = arcsOf s.currentValues ∪ s.arcsBelow := rfl

@[simp] theorem arcs_new : (new : ContextStore (arcTypes U)).arcs = ∅ := rfl

/-! ## Overwriting the active scope -/

/-- The store with the keys of `n` removed from its active scope. -/
def without (s : ContextStore U) (n : ValueMap U) : ContextStore U :=
  { s with currentValues := s.currentValues.filter fun k _ => decide (k ∉ n) }

/-- An overwritten scope owns the new entries and what they have not replaced. -/
theorem arcs_overwrite (s : ContextStore (arcTypes U)) (n : ValueMap (arcTypes U)) :
    (s.overwrite n).arcs = arcsOf n ∪ (s.without n).arcs := by
  have hcurrent : arcsOf (s.overwrite n).currentValues =
      arcsOf n ∪ arcsOf (s.without n).currentValues := by
    ext a
    simp only [overwrite, without, Finset.mem_union, mem_arcsOf, Map.lookup_extend,
      Map.lookup_filter, Option.or_eq_some_iff, Option.filter_eq_some_iff, decide_eq_true_eq,
      Finmap.lookup_eq_none]
    constructor
    · rintro ⟨k, v, hk | ⟨hn, hk⟩, hv⟩
      · exact .inl ⟨k, v, hk, hv⟩
      · exact .inr ⟨k, v, ⟨hk, hn⟩, hv⟩
    · rintro (⟨k, v, hk, hv⟩ | ⟨k, v, ⟨hk, hn⟩, hv⟩)
      · exact ⟨k, v, .inl hk, hv⟩
      · exact ⟨k, v, .inr ⟨hn, hk⟩, hv⟩
  have hbelow : (s.overwrite n).arcsBelow = (s.without n).arcsBelow := rfl
  rw [arcs_eq, arcs_eq, hcurrent, hbelow, Finset.union_assoc]

/-- A scope owns the entries under the keys of `n`, and the others. -/
theorem mem_arcs_iff_without (s : ContextStore (arcTypes U)) (n : ValueMap (arcTypes U))
    (a : Nat) :
    a ∈ s.arcs ↔ (∃ k v, s.currentValues.lookup k = some v ∧ k ∈ n ∧ v.arc = a) ∨
      a ∈ (s.without n).arcs := by
  have hbelow : (s.without n).arcsBelow = s.arcsBelow := rfl
  rw [arcs_eq, arcs_eq, hbelow, Finset.mem_union, Finset.mem_union, ← or_assoc]
  refine or_congr_left ?_
  simp only [without, mem_arcsOf, Map.lookup_filter, Option.filter_eq_some_iff,
    decide_eq_true_eq]
  constructor
  · rintro ⟨k, v, hk, hv⟩
    by_cases hn : k ∈ n
    · exact .inl ⟨k, v, hk, hn, hv⟩
    · exact .inr ⟨k, v, ⟨hk, hn⟩, hv⟩
  · rintro (⟨k, v, hk, -, hv⟩ | ⟨k, v, ⟨hk, -⟩, hv⟩)
    · exact ⟨k, v, hk, hv⟩
    · exact ⟨k, v, hk, hv⟩

/-! ## Popping -/

/-- The scopes that a pop to below the expected depth removes, innermost first. -/
def poppedFrames (e : Nat) (s : ContextStore U) : List (Frame Key String (ContextValue U)) :=
  if s.depth < e ∨ e ≤ 1 then []
  else s.ownFrames.take (s.ownFrames.length - min (e - 1) (maxScopeDepth + 1))

/-- A pop splits the scopes of a store into those it removes and those it keeps. -/
theorem WellFormed.ownFrames_eq_popped_append {s : ContextStore U} (h : s.WellFormed)
    (shared : List (ScopeNode U) → Bool) (e : Nat) :
    s.ownFrames = s.poppedFrames e ++ (s.popScope shared e).1.ownFrames := by
  unfold poppedFrames
  split_ifs with hstale
  · rw [popScope_of_stale shared hstale, List.nil_append]
  · rw [(popScope_cutTo shared h (by omega) (by omega)).frames, List.take_append_drop]

theorem WellFormed.inheritedFrames_popScope {s : ContextStore U} (h : s.WellFormed)
    (shared : List (ScopeNode U) → Bool) (e : Nat) :
    (s.popScope shared e).1.inheritedFrames = s.inheritedFrames := by
  by_cases hstale : s.depth < e ∨ e ≤ 1
  · rw [popScope_of_stale shared hstale]
  · exact congrArg (List.map ScopeNode.frame)
      (popScope_cutTo shared h (by omega) (by omega)).frozen

/-- Past the limit only the count is popped. -/
theorem WellFormed.poppedFrames_of_lt {s : ContextStore U} (h : s.WellFormed) {e : Nat}
    (he : maxScopeDepth + 1 < e) : s.poppedFrames e = [] := by
  unfold poppedFrames
  split_ifs
  · rfl
  · rw [h.length_ownFrames, show min s.depth (maxScopeDepth + 1) -
      min (e - 1) (maxScopeDepth + 1) = 0 by omega, List.take_zero]

/-- The popped scopes are the active one and those popped from the store restored below it. -/
theorem WellFormed.poppedFrames_cons {s : ContextStore U} (h : s.WellFormed) {n : ScopeNode U}
    {parent : List (ScopeNode U)} (hc : s.chain = n :: parent) {e : Nat} (he : 1 < e)
    (hreal : e ≤ maxScopeDepth + 1) (hle : e ≤ s.depth) :
    s.poppedFrames e =
      ⟨s.currentName, s.currentValues⟩ :: (restoreOwned n parent s).poppedFrames e := by
  have hlen := h.length_ownFrames
  have hcut : CutTo n.depth s (restoreOwned n parent s) := .restoreOwned h hc
  have hlen' := hcut.wf.length_ownFrames
  rw [hcut.depth] at hlen'
  have hframes : s.ownFrames =
      ⟨s.currentName, s.currentValues⟩ :: (restoreOwned n parent s).ownFrames := by
    rw [ownFrames, hc]
    rfl
  have hnested := h.nested
  rw [hc] at hnested
  have hdepth : min s.depth (maxScopeDepth + 1) = n.depth + 1 := hnested.1
  rw [poppedFrames, if_neg (by omega), poppedFrames, hcut.depth, hlen, hframes,
    show min s.depth (maxScopeDepth + 1) - min (e - 1) (maxScopeDepth + 1) =
      (n.depth + 1 - e) + 1 by omega, List.take_succ_cons, hlen']
  congr 1
  split_ifs with hdone
  · rw [show n.depth + 1 - e = 0 by omega, List.take_zero]
  · congr 1
    omega

/-- The old values the loop of `pop_scope` gathers: an outer scope overwrites what inner ones have
left. The induction is on the chain, as for what the loop leaves. -/
theorem garbage_popLoop (shared : List (ScopeNode U) → Bool) {e : Nat} (he : 1 < e)
    (ns : List (ScopeNode U)) :
    ∀ (s : ContextStore U) (old : Option (ValueMap U)), s.chain = ns → s.WellFormed →
      e ≤ s.depth → (popLoop shared e ns s old).2.getD ∅ =
        flatten ((s.poppedFrames e).map Frame.values).reverse ∪ old.getD ∅ := by
  induction ns with
  | nil =>
    intro s old hc h hle
    have hlen := h.nested.depth_eq
    rw [hc] at hlen
    unfold maxScopeDepth at hlen
    simp only [List.length_nil] at hlen
    omega
  | cons n parent ih =>
    intro s old hc h hle
    have hnested := h.nested
    rw [hc] at hnested
    have hdepth : min s.depth (maxScopeDepth + 1) = n.depth + 1 := hnested.1
    rw [popLoop, restoreShared_eq, ite_self, popDead_eq]
    by_cases hreal : e ≤ maxScopeDepth + 1
    · have hd : (if e ≤ s.depth ∧ maxScopeDepth + 1 < s.depth then
          max (e - 1) (maxScopeDepth + 1) else s.depth) = min s.depth (maxScopeDepth + 1) := by
        split_ifs <;> omega
      have hcut : CutTo n.depth s (restoreOwned n parent s) := .restoreOwned h hc
      have hgarbage : addGarbage s.currentValues old = s.currentValues ∪ old.getD ∅ := by
        cases old with
        | none => exact Finmap.union_empty.symm
        | some existing => rfl
      rw [hd, if_pos (by omega), h.poppedFrames_cons hc he hreal hle, List.map_cons,
        List.reverse_cons, flatten_append, flatten_cons, flatten_nil, Finmap.union_empty,
        Finmap.union_assoc, ← hgarbage]
      rcases Nat.lt_or_ge n.depth e with hdone | hmore
      · have hnone : (restoreOwned n parent s).poppedFrames e = [] := if_pos (.inl hdone)
        rw [popLoop_of_lt shared (s := restoreOwned n parent s) hdone, hnone]
        exact Finmap.empty_union.symm
      · exact ih (restoreOwned n parent s) (some (addGarbage s.currentValues old)) rfl hcut.wf hmore
    · have hd : (if e ≤ s.depth ∧ maxScopeDepth + 1 < s.depth then
          max (e - 1) (maxScopeDepth + 1) else s.depth) = e - 1 := by
        split_ifs <;> omega
      rw [hd, if_neg (by omega), h.poppedFrames_of_lt (by omega)]
      exact Finmap.empty_union.symm

/-- **The garbage of a pop** holds the values of the popped scopes, where an outer scope has
overwritten what inner ones held under its keys. -/
theorem WellFormed.garbage_popScope {s : ContextStore U} (h : s.WellFormed)
    (shared : List (ScopeNode U) → Bool) (e : Nat) :
    ((s.popScope shared e).2.map ScopeGarbage.oldValues).getD ∅ =
      flatten ((s.poppedFrames e).map Frame.values).reverse := by
  by_cases hstale : s.depth < e ∨ e ≤ 1
  · rw [ContextStore.popScope, if_pos hstale, poppedFrames, if_pos hstale]
    rfl
  · have hloop := garbage_popLoop shared (e := e) (by omega) s.chain s none rfl h (by omega)
    rw [Option.getD_none, Finmap.union_empty] at hloop
    rw [ContextStore.popScope, if_neg hstale, ← hloop]
    dsimp only
    cases (popLoop shared e s.chain s none).2 <;> rfl

end ContextStore

end DContext
