import DContext.Store.WellFormed

/-!
# What a fork still sees

A fork freezes the active scope and its chain as the frozen parent of the child. The frozen
parent of the forked store itself is not among the frozen nodes, so a child sees what its parent
holds in scopes of its own and not what its parent inherited.

## Main definitions

* `SameView maxLen t s`: `t` and `s` answer every read alike
* `NothingInherited maxLen s`: `s` shows nothing that only its frozen parent holds

## Main results

* `getValue_forkChild`, `scopeChain_forkChild`: the view of a child
* `forkChild_sameView_iff`: when a chain of nested forks keeps the view of the store it starts
  from
-/

namespace DContext

open Overlay

variable {U : TypeUniverse}

namespace ContextStore

/-- `t` and `s` answer every read alike, under the limit `maxLen` on scope chains. -/
structure SameView (maxLen : Nat) (t s : ContextStore U) : Prop where
  getValue : ∀ key, t.getValue key = s.getValue key
  collectValues : t.collectValues = s.collectValues
  scopeChain : t.scopeChain maxLen = s.scopeChain maxLen

/-- The frozen parent of `s` holds no key that the scopes of `s` do not hold, and its names leave
no trace in the part of the scope chain under the limit. -/
structure NothingInherited (maxLen : Nat) (s : ContextStore U) : Prop where
  keys : ∀ n ∈ s.frozenParent, ∀ k ∈ n.values,
    k ∈ s.currentValues ∨ ∃ m ∈ s.chain, k ∈ m.values
  names :
    if maxLen = 0 then namesOf s.inheritedFrames = []
    else s.remoteChain.rtake (maxLen - (namesOf s.ownFrames).length) =
      (s.remoteChain ++ namesOf s.inheritedFrames).rtake
        (maxLen - (namesOf s.ownFrames).length)

/-- A child looks a key up in the scopes of its parent, and no further. -/
theorem getValue_forkChild {s : ContextStore U} (h : s.WellFormed) (key : Key) :
    s.forkChild.getValue key = layered (s.ownFrames.map Frame.values) key := by
  rw [h.forkChild.getValue_eq, ownFrames_forkChild, inheritedFrames_forkChild, List.map_append,
    layered_append]
  simp

theorem scopeChain_forkChild {s : ContextStore U} (h : s.WellFormed) (maxLen : Nat) :
    s.forkChild.scopeChain maxLen = keepLast maxLen (s.remoteChain ++ namesOf s.ownFrames) := by
  rw [h.forkChild.scopeChain_eq, ownFrames_forkChild, inheritedFrames_forkChild]
  simp [namesOf, forkChild]

/-- The own scopes hold the keys of the frozen parent, said of the frames. -/
theorem inherited_keys_iff (s : ContextStore U) :
    (∀ m ∈ s.inheritedFrames.map Frame.values, ∀ k ∈ m,
        ∃ m' ∈ s.ownFrames.map Frame.values, k ∈ m') ↔
      ∀ n ∈ s.frozenParent, ∀ k ∈ n.values,
        k ∈ s.currentValues ∨ ∃ m ∈ s.chain, k ∈ m.values := by
  simp [ownFrames, inheritedFrames, ScopeNode.frame]

/-- **One fork** keeps the view exactly when nothing is inherited. -/
theorem sameView_forkChild_iff {s : ContextStore U} (h : s.WellFormed) (maxLen : Nat) :
    SameView maxLen s.forkChild s ↔ NothingInherited maxLen s := by
  -- The child reads the own frames of `s`; `s` reads its inherited frames below them.
  have hvalues : (∀ key, s.forkChild.getValue key = s.getValue key) ↔
      ∀ n ∈ s.frozenParent, ∀ k ∈ n.values,
        k ∈ s.currentValues ∨ ∃ m ∈ s.chain, k ∈ m.values := by
    rw [← inherited_keys_iff, ← layered_append_eq_iff]
    refine forall_congr' fun key => ?_
    rw [getValue_forkChild h, h.getValue_eq, List.map_append]
  have hnames : s.forkChild.scopeChain maxLen = s.scopeChain maxLen ↔
      if maxLen = 0 then namesOf s.inheritedFrames = []
      else s.remoteChain.rtake (maxLen - (namesOf s.ownFrames).length) =
        (s.remoteChain ++ namesOf s.inheritedFrames).rtake
          (maxLen - (namesOf s.ownFrames).length) := by
    rw [scopeChain_forkChild h, h.scopeChain_eq, keepLast_append_eq_iff]
  constructor
  · intro hview
    exact ⟨hvalues.mp hview.getValue, hnames.mp hview.scopeChain⟩
  · intro hnothing
    have hget := hvalues.mpr hnothing.keys
    refine ⟨hget, ?_, hnames.mpr hnothing.names⟩
    apply Finmap.ext_lookup
    intro key
    rw [lookup_collectValues, lookup_collectValues, hget key]

theorem SameView.refl (maxLen : Nat) (s : ContextStore U) : SameView maxLen s s :=
  ⟨fun _ => rfl, rfl, rfl⟩

theorem SameView.trans {maxLen : Nat} {r t s : ContextStore U} (h : SameView maxLen r t)
    (h' : SameView maxLen t s) : SameView maxLen r s :=
  ⟨fun key => (h.getValue key).trans (h'.getValue key),
    h.collectValues.trans h'.collectValues, h.scopeChain.trans h'.scopeChain⟩

theorem SameView.symm {maxLen : Nat} {t s : ContextStore U} (h : SameView maxLen t s) :
    SameView maxLen s t :=
  ⟨fun key => (h.getValue key).symm, h.collectValues.symm, h.scopeChain.symm⟩

theorem Reachable.iterate_forkChild {s : ContextStore U} (h : s.Reachable) (n : Nat) :
    (ContextStore.forkChild^[n] s).Reachable := by
  induction n with
  | zero => exact h
  | succ n ih =>
    rw [Function.iterate_succ_apply']
    exact ih.forkChild

/-- **Nested forks**: from a reachable store, every fork of a chain of nested forks has the view
of the store the chain starts from exactly when none of the forked stores inherits anything it
does not hold itself. -/
theorem forkChild_sameView_iff {s : ContextStore U} (h : s.Reachable) (maxLen n : Nat) :
    (∀ i ≤ n, SameView maxLen (forkChild^[i] s) s) ↔
      ∀ i < n, NothingInherited maxLen (forkChild^[i] s) := by
  have hstep : ∀ i, SameView maxLen (forkChild^[i + 1] s) (forkChild^[i] s) ↔
      NothingInherited maxLen (forkChild^[i] s) := fun i => by
    rw [Function.iterate_succ_apply']
    exact sameView_forkChild_iff (h.iterate_forkChild i).wellFormed maxLen
  constructor
  · -- two neighbours of the chain that both have the view of `s` have each other's
    intro hview i hi
    exact (hstep i).mp ((hview (i + 1) hi).trans (hview i hi.le).symm)
  · intro hnothing i hi
    induction i with
    | zero => exact .refl maxLen s
    | succ i ih =>
      have hprev : SameView maxLen (forkChild^[i] s) s := ih (Nat.le_of_succ_le hi)
      exact ((hstep i).mpr (hnothing i hi)).trans hprev

/-- A fork of a store that holds one value. -/
def forkOfOne : ContextStore primitiveTypes := (new.setValue "user" (u64Value 7)).forkChild

theorem forkOfOne_reachable : forkOfOne.Reachable :=
  (Reachable.new.setValue "user" (u64Value 7)).forkChild

/-- A fork that has overwritten what it inherits, and is in a scope of its own. -/
def overwritingFork : ContextStore primitiveTypes :=
  ((forkOfOne.setValue "user" (u64Value 8)).pushScope .empty (some "work")).1

/-- A fork of it keeps the view, and a fork of that one does not. -/
theorem forkChild_sameView_overwritingFork :
    (∀ i ≤ 1, SameView 64 (forkChild^[i] overwritingFork) overwritingFork) ∧
      ¬ ∀ i ≤ 2, SameView 64 (forkChild^[i] overwritingFork) overwritingFork := by
  have hreach : overwritingFork.Reachable :=
    (forkOfOne_reachable.setValue "user" (u64Value 8)).pushScope .empty (some "work")
  constructor
  · refine (forkChild_sameView_iff hreach 64 1).mpr fun i hi => ?_
    obtain rfl : i = 0 := Nat.lt_one_iff.mp hi
    refine ⟨fun n hn k hk => ?_, rfl⟩
    obtain rfl := List.mem_singleton.mp hn
    have hk' : k ∈ Finmap.insert "user" (u64Value 7) (∅ : ValueMap primitiveTypes) := hk
    obtain rfl : k = "user" := (Finmap.mem_insert.mp hk').resolve_right Finmap.notMem_empty
    exact .inr ⟨_, List.mem_cons_self, by decide⟩
  · intro hview
    have hnothing := (forkChild_sameView_iff hreach 64 2).mp hview 1 Nat.one_lt_two
    have huser := hnothing.keys _ (List.mem_cons_of_mem _ List.mem_cons_self) "user" (by decide)
    rcases huser with hown | ⟨n, hn, -⟩
    · exact absurd hown (by decide)
    · cases hn

/-- Forking a fork loses the values of the store that was forked first. -/
theorem forkChild_loses_grandparent :
    forkOfOne.Reachable ∧ forkOfOne.getValue "user" = some (u64Value 7) ∧
      forkOfOne.forkChild.getValue "user" = none ∧
      ¬ SameView 64 forkOfOne.forkChild forkOfOne := by
  have hsees : forkOfOne.getValue "user" = some (u64Value 7) := rfl
  have hlost : forkOfOne.forkChild.getValue "user" = none := rfl
  refine ⟨forkOfOne_reachable, hsees, hlost, ?_⟩
  intro hview
  have heq := hview.getValue "user"
  rw [hsees, hlost] at heq
  cases heq

end ContextStore

end DContext
