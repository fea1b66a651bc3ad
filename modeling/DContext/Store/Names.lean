import DContext.Store.Snapshot
import DContext.Store.WellFormed

/-!
# Names are only carried

The names of scopes are shown in scope chains and looked at nowhere else. So a change of all names
in a store, renaming them, leaving them out or forgetting old ones, goes through every operation:
what comes out is what would have come out without it, with the names changed in the same way.

## Main definitions

* `NameMap`: a change of names
* `NameMap.rename f`, `NameMap.erase`, `NameMap.trim m`: renaming by a function, leaving all names
  out, and keeping some of the names from elsewhere
* `NameMap.Carries ν limit limit'`: the change of names goes through the limits on scope chains
* `ContextStore.mapNames ν s`, `ContextSnapshot.mapNames ν snap`: the names changed everywhere

## Main results

* `getValue_mapNames`, `scopeChain_mapNames`: what is read
* `pushScope_mapNames`, `popScope_mapNames`, ...: every operation
-/

namespace DContext

open Overlay

variable {U : TypeUniverse}

/-- A change of names: what becomes of the name of a scope, which may be left out, and of the names
that a store or a snapshot has from elsewhere. -/
structure NameMap where
  name : String → Option String
  chain : List String → List String
  nil : chain [] = []

/-- The change of names turns a chain cut to one limit into the chain of changed names cut to the
other. -/
def NameMap.Carries (ν : NameMap) (limit limit' : Nat) : Prop :=
  ∀ remote names, ContextStore.truncateChain limit' (ν.chain remote ++ names.filterMap ν.name) =
    ν.chain (ContextStore.truncateChain limit (remote ++ names))

/-- A limit keeps the last `m` names; `0` stands for all names, and for no limit. -/
def Allows (m limit : Nat) : Prop := limit = 0 ∨ 0 < m ∧ m ≤ limit

/-- Cutting to a limit that keeps the last `m` names changes nothing of these. -/
theorem keepLast_truncateChain {m limit : Nat} (h : Allows m limit) (names : List String) :
    keepLast m (ContextStore.truncateChain limit names) = keepLast m names := by
  rw [ContextStore.truncateChain_eq_keepLast]
  rcases h with rfl | ⟨hm, hle⟩
  · rw [keepLast_zero]
  · rw [keepLast_pos hm, keepLast_pos hm, keepLast_pos (hm.trans_le hle)]
    unfold List.rtake
    rw [List.drop_drop, List.length_drop]
    congr 1
    omega

namespace NameMap

/-- Renaming by any function, two names to the same one perhaps. -/
def rename (f : String → String) : NameMap where
  name name := some (f name)
  chain names := names.map f
  nil := rfl

/-- Leaving all names out. -/
def erase : NameMap where
  name _ := none
  chain _ := []
  nil := rfl

/-- Keeping the last `m` of the names from elsewhere, or all of them when `m = 0`. -/
def trim (m : Nat) : NameMap where
  name name := some name
  chain names := keepLast m names
  nil := keepLast_of_length_le (Nat.zero_le m)

theorem rename_carries (f : String → String) (limit : Nat) :
    (rename f).Carries limit limit := by
  intro remote names
  have hnames : names.filterMap (rename f).name = names.map f :=
    congrFun (List.filterMap_eq_map' (f := f)) names
  rw [hnames]
  show ContextStore.truncateChain limit (remote.map f ++ names.map f) =
    (ContextStore.truncateChain limit (remote ++ names)).map f
  unfold ContextStore.truncateChain
  rw [← List.map_append, List.length_map]
  split_ifs
  · exact List.map_drop.symm
  · rfl

/-- Forgetting names is what a change of the limit comes to. -/
theorem trim_carries {m limit : Nat} (h : Allows m limit) : (trim m).Carries limit m := by
  intro remote names
  have hnames : names.filterMap (trim m).name = names := List.filterMap_some
  rw [hnames, ContextStore.truncateChain_eq_keepLast]
  show keepLast m (keepLast m remote ++ names) =
    keepLast m (ContextStore.truncateChain limit (remote ++ names))
  rw [keepLast_append_keepLast, keepLast_truncateChain h]

end NameMap

/-- The node with its names changed. -/
def ScopeNode.mapNames (ν : NameMap) (n : ScopeNode U) : ScopeNode U :=
  { n with name := n.name.bind ν.name, remoteChain := ν.chain n.remoteChain }

/-- The snapshot with its names changed. -/
def ContextSnapshot.mapNames (ν : NameMap) (snap : ContextSnapshot U) : ContextSnapshot U :=
  { snap with scopeChain := ν.chain snap.scopeChain }

namespace ContextStore

/-- The store with its names changed, in its frozen scopes too. -/
def mapNames (ν : NameMap) (s : ContextStore U) : ContextStore U :=
  { s with
    chain := s.chain.map (ScopeNode.mapNames ν)
    currentName := s.currentName.bind ν.name
    remoteChain := ν.chain s.remoteChain
    frozenParent := s.frozenParent.map (ScopeNode.mapNames ν) }

variable (ν : NameMap)

/-! ## Reading -/

theorem lookupAbove_mapNames (barrier : Nat) (key : Key) (ns : List (ScopeNode U)) :
    lookupAbove barrier key (ns.map (ScopeNode.mapNames ν)) = lookupAbove barrier key ns := by
  induction ns with
  | nil => rfl
  | cons n parent ih =>
    rw [List.map_cons, lookupAbove, lookupAbove, ih]
    rfl

theorem lookupFrozen_mapNames (key : Key) (ns : List (ScopeNode U)) :
    lookupFrozen key (ns.map (ScopeNode.mapNames ν)) = lookupFrozen key ns := by
  induction ns with
  | nil => rfl
  | cons n parent ih =>
    rw [List.map_cons, lookupFrozen, lookupFrozen, ih]
    rfl

/-- **Values are read past the names.** -/
@[simp] theorem getValue_mapNames (s : ContextStore U) (key : Key) :
    (s.mapNames ν).getValue key = s.getValue key := by
  simp only [getValue, mapNames, lookupAbove_mapNames, lookupFrozen_mapNames]

@[simp] theorem collectValues_mapNames (s : ContextStore U) :
    (s.mapNames ν).collectValues = s.collectValues := by
  apply Finmap.ext_lookup
  intro key
  rw [lookup_collectValues, lookup_collectValues, getValue_mapNames]

/-- The names that the store has not got from elsewhere: those of the frozen parent and its own. -/
def ownPath (s : ContextStore U) : List String :=
  (if s.scopeBarrier.isNone then (s.frozenParent.filterMap ScopeNode.name).reverse else []) ++
    ((if s.depth > s.remoteChainBaseDepth then s.currentName.toList else []) ++
      namesAbove (s.scopeBarrier.getD 0) s.remoteChainBaseDepth s.chain).reverse

theorem scopeChain_eq_ownPath (maxLen : Nat) (s : ContextStore U) :
    s.scopeChain maxLen = truncateChain maxLen (s.remoteChain ++ s.ownPath) := by
  rw [scopeChain, ownPath, ← List.append_assoc]

theorem toList_bind (name : Option String) :
    (name.bind ν.name).toList = name.toList.filterMap ν.name := by
  cases name with
  | none => rfl
  | some name => cases h : ν.name name <;> simp [h]

theorem namesAbove_mapNames (barrier base : Nat) (ns : List (ScopeNode U)) :
    namesAbove barrier base (ns.map (ScopeNode.mapNames ν)) =
      (namesAbove barrier base ns).filterMap ν.name := by
  induction ns with
  | nil => rfl
  | cons n parent ih =>
    rw [List.map_cons, namesAbove, namesAbove, ih]
    show (if n.depth ≤ barrier then [] else
      (if n.depth > base then (n.name.bind ν.name).toList else []) ++ _) = _
    rw [toList_bind]
    split_ifs <;> simp

theorem ownPath_mapNames (s : ContextStore U) :
    (s.mapNames ν).ownPath = s.ownPath.filterMap ν.name := by
  have hfrozen : (s.frozenParent.map (ScopeNode.mapNames ν)).filterMap ScopeNode.name =
      (s.frozenParent.filterMap ScopeNode.name).filterMap ν.name := by
    rw [List.filterMap_map, List.filterMap_filterMap]
    rfl
  unfold ownPath mapNames
  dsimp only
  rw [hfrozen, namesAbove_mapNames, toList_bind]
  split_ifs <;> simp [List.filterMap_append, List.filterMap_reverse]

/-- **The chain has its names changed**, and that is all that a change of names shows. -/
theorem scopeChain_mapNames {ν : NameMap} {limit limit' : Nat} (hν : ν.Carries limit limit')
    (s : ContextStore U) : (s.mapNames ν).scopeChain limit' = ν.chain (s.scopeChain limit) := by
  rw [scopeChain_eq_ownPath, scopeChain_eq_ownPath, ← hν, ownPath_mapNames]
  rfl

/-! ## Writing -/

@[simp] theorem mapNames_new : (new : ContextStore U).mapNames ν = new := by
  unfold mapNames new
  rw [ν.nil]
  rfl

@[simp] theorem setValue_mapNames (key : Key) (value : ContextValue U) (s : ContextStore U) :
    setValue key value (s.mapNames ν) = (setValue key value s).mapNames ν := rfl

@[simp] theorem forkChild_mapNames (s : ContextStore U) :
    (s.mapNames ν).forkChild = s.forkChild.mapNames ν := rfl

/-- A merge takes no name from its source. -/
@[simp] theorem mergeWith_mapNames (s source : ContextStore U) :
    (s.mapNames ν).mergeWith (source.mapNames ν) = (s.mergeWith source).mapNames ν := by
  unfold mergeWith
  rw [collectValues_mapNames]
  rfl

@[simp] theorem pushScope_mapNames (registry : Registry U) (name : Option String)
    (s : ContextStore U) :
    (s.mapNames ν).pushScope registry (name.bind ν.name) =
      ((s.pushScope registry name).1.mapNames ν, (s.pushScope registry name).2) := by
  have hvalues : (s.mapNames ν).getValue = s.getValue := funext (getValue_mapNames ν s)
  unfold pushScope
  rw [hvalues]
  dsimp only
  split_ifs with hdead hdead' hdead'
  · rfl
  · exact absurd hdead hdead'
  · exact absurd hdead' hdead
  · rfl

/-- A restored scope has the names of its node. The induction is on the chain. -/
theorem popLoop_mapNames (shared shared' : List (ScopeNode U) → Bool) (e : Nat)
    (ns : List (ScopeNode U)) : ∀ (s : ContextStore U) (old old' : Option (ValueMap U)),
      (popLoop shared e (ns.map (ScopeNode.mapNames ν)) (s.mapNames ν) old).1 =
        (popLoop shared' e ns s old').1.mapNames ν := by
  induction ns with
  | nil => exact fun s old old' => rfl
  | cons n parent ih =>
    intro s old old'
    rw [List.map_cons, popLoop, popLoop, restoreShared_eq, restoreShared_eq, ite_self, ite_self]
    show (if popDead e s.depth ≥ e ∧ popDead e s.depth > 1 then _ else _ : _ × _).1 = _
    split_ifs
    · exact ih (restoreOwned n parent s) _ _
    · rfl

/-- **A pop** leaves the names that the scopes below it have, whichever nodes have other owners. -/
theorem popScope_mapNames (shared shared' : List (ScopeNode U) → Bool) (e : Nat)
    (s : ContextStore U) :
    ((s.mapNames ν).popScope shared e).1 = (s.popScope shared' e).1.mapNames ν := by
  unfold popScope
  show (if s.depth < e ∨ e ≤ 1 then _ else _ : _ × _).1 = _
  split_ifs
  · rfl
  · exact popLoop_mapNames ν shared shared' e s.chain s none none

end ContextStore

/-! ## Snapshots -/

theorem captureWithRegistry_mapNames {ν : NameMap} {limit limit' : Nat}
    (hν : ν.Carries limit limit') (s : ContextStore U) (registry : Registry U) :
    captureWithRegistry limit' (s.mapNames ν) registry =
      (captureWithRegistry limit s registry).mapNames ν := by
  unfold captureWithRegistry
  rw [ContextStore.collectValues_mapNames, ContextStore.scopeChain_mapNames hν]
  rfl

theorem storeFromSnapshot_mapNames (ν : NameMap) (snap : ContextSnapshot U)
    (registry : Registry U) :
    storeFromSnapshotWithRegistry (snap.mapNames ν) registry =
      (storeFromSnapshotWithRegistry snap registry).mapNames ν := rfl

end DContext
