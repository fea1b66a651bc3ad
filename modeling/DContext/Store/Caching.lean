import DContext.Overlay.Views
import DContext.Store.Fork
import DContext.Store.Refinement
import DContext.Store.Snapshot

/-!
# Stores under registries that cache different keys

Two registries may differ in which keys are cached and in nothing else. Stores that are treated
alike under such registries hold different copies and still look alike: what a store copies into
a new scope is what it would find without the copy. A fork is the one place where the copies can
show, since a child finds those in the scopes of its parent and not what the parent inherits.

## Main definitions

* `Registry.SameButCached`: two registries that differ in their cached keys at most
* `ContextStore.Alike s s'`: the stacks the stores stand for look alike
* `ContextStore.HoldsKey s key`: some own scope of the store holds the key

## Main results

* `Alike.getValue`, `Alike.collectValues`, `Alike.scopeChain`: stores that look alike read alike
* `Alike.pushScope`, `Alike.popScope`, `Alike.overwrite`: they stay so under either registry
* `Alike.getValue_forkChild_iff`, `Alike.forkChild_iff`: when their forks look alike
* `captureWithRegistry_congr`, `storeFromSnapshotWithRegistry_congr`: snapshots, and stores made
  from one
-/

namespace DContext

open Overlay

variable {U : TypeUniverse}

/-! ## Registries -/

/-- The registration without its `cached` flag. -/
def Registration.uncached (reg : Registration U) : Registration U := { reg with cached := false }

namespace Registry

/-- The registries differ in which keys are cached, and in nothing else. -/
def SameButCached (registry registry' : Registry U) : Prop :=
  ∀ key, (registry.map.lookup key).map Registration.uncached =
    (registry'.map.lookup key).map Registration.uncached

/-- What is asked of a registration apart from its flag has the same answer. -/
theorem SameButCached.any_eq {registry registry' : Registry U}
    (h : registry.SameButCached registry') (key : Key) {p : Registration U → Bool}
    (hp : ∀ reg : Registration U, p reg.uncached = p reg) :
    (registry.map.lookup key).any p = (registry'.map.lookup key).any p := by
  have hany : ∀ o : Option (Registration U), (o.map Registration.uncached).any p = o.any p := by
    intro o
    cases o with
    | none => rfl
    | some reg => exact hp reg
  rw [← hany, h key, hany]

theorem SameButCached.isLocalKey {registry registry' : Registry U}
    (h : registry.SameButCached registry') (key : Key) :
    registry.isLocalKey key = registry'.isLocalKey key :=
  h.any_eq key fun _ => rfl

theorem SameButCached.isValidValue {registry registry' : Registry U}
    (h : registry.SameButCached registry') (key : Key) (value : ContextValue U) :
    registry.isValidValue key value = registry'.isValidValue key value :=
  h.any_eq key fun _ => rfl

end Registry

/-! ## Stores -/

namespace ContextStore

/-- The stacks that the stores stand for look alike. -/
def Alike (s s' : ContextStore U) : Prop :=
  ∃ (h : s.WellFormed) (h' : s'.WellFormed), (s.toStack h).Alike (s'.toStack h')

/-- Some own scope holds the key. -/
def HoldsKey (s : ContextStore U) (key : Key) : Prop :=
  key ∈ s.currentValues ∨ ∃ n ∈ s.chain, key ∈ n.values

theorem exists_ownFrames_iff (s : ContextStore U) (key : Key) :
    (∃ f ∈ s.ownFrames, key ∈ f.values) ↔ s.HoldsKey key := by
  simp [ownFrames, ScopeNode.frame, HoldsKey]

theorem toStack_overwrite {s : ContextStore U} (h : s.WellFormed) (m : ValueMap U) :
    (s.overwrite m).toStack (h.withValues (s.currentValues.extend m)) =
      (s.toStack h).overwrite m := rfl

theorem toStack_forkChild {s : ContextStore U} (h : s.WellFormed) :
    s.forkChild.toStack h.forkChild = (s.toStack h).fork := rfl

namespace Alike

variable {s s' : ContextStore U}

theorem refl (h : s.WellFormed) : Alike s s := ⟨h, h, .refl _⟩

theorem depth (h : Alike s s') : s.depth = s'.depth := by
  obtain ⟨_, _, h⟩ := h
  exact h.depth

theorem getValue (h : Alike s s') (key : Key) : s.getValue key = s'.getValue key := by
  obtain ⟨hs, hs', h⟩ := h
  rw [← toStack_lookup hs, ← toStack_lookup hs']
  exact h.lookup key

theorem collectValues (h : Alike s s') : s.collectValues = s'.collectValues := by
  apply Finmap.ext_lookup
  intro key
  rw [lookup_collectValues, lookup_collectValues]
  exact h.getValue key

theorem scopeChain (h : Alike s s') (maxLen : Nat) :
    s.scopeChain maxLen = s'.scopeChain maxLen := by
  obtain ⟨hs, hs', h⟩ := h
  rw [hs.scopeChain_eq, hs'.scopeChain_eq]
  exact h.names maxLen

/-- Pushes under two registries, whatever keys they cache. -/
theorem pushScope (h : Alike s s') (registry registry' : Registry U) (name : Option String) :
    Alike (s.pushScope registry name).1 (s'.pushScope registry' name).1 := by
  obtain ⟨hs, hs', h⟩ := h
  refine ⟨hs.pushScope registry name, hs'.pushScope registry' name, ?_⟩
  rw [toStack_pushScope, toStack_pushScope]
  exact h.push _ _ name

/-- Pops to one depth, whatever the ownership of the nodes they meet. -/
theorem popScope (h : Alike s s') (shared shared' : List (ScopeNode U) → Bool) (e : Nat) :
    Alike (s.popScope shared e).1 (s'.popScope shared' e).1 := by
  obtain ⟨hs, hs', h⟩ := h
  refine ⟨hs.popScope shared e, hs'.popScope shared' e, ?_⟩
  rw [toStack_popScope, toStack_popScope]
  exact h.pop e

theorem overwrite (h : Alike s s') (m : ValueMap U) : Alike (s.overwrite m) (s'.overwrite m) := by
  obtain ⟨hs, hs', h⟩ := h
  refine ⟨hs.withValues _, hs'.withValues _, ?_⟩
  rw [toStack_overwrite hs, toStack_overwrite hs']
  exact h.overwrite m

theorem setValue (h : Alike s s') (key : Key) (value : ContextValue U) :
    Alike (s.setValue key value) (s'.setValue key value) :=
  h.overwrite (Finmap.singleton key value)

theorem mergeWith (h : Alike s s') {source source' : ContextStore U}
    (hsource : Alike source source') : Alike (s.mergeWith source) (s'.mergeWith source') := by
  rw [mergeWith_eq_overwrite, mergeWith_eq_overwrite, hsource.collectValues]
  exact h.overwrite _

/-- A key looked up in the forks is one whose presence in the own scopes is compared. -/
theorem getValue_forkChild_iff (h : Alike s s') (key : Key) :
    s.forkChild.getValue key = s'.forkChild.getValue key ↔ (s.HoldsKey key ↔ s'.HoldsKey key) := by
  obtain ⟨hs, hs', h⟩ := h
  have hviews : SameViews (s.inheritedFrames.map Frame.values) (s'.inheritedFrames.map Frame.values)
      s.ownFrames s'.ownFrames := h.views
  rw [getValue_forkChild hs, getValue_forkChild hs', hviews.layered_frames_iff key,
    exists_ownFrames_iff, exists_ownFrames_iff]

/-- **Forks** look alike exactly when the own scopes of the forked stores hold the same keys. -/
theorem forkChild_iff (h : Alike s s') :
    Alike s.forkChild s'.forkChild ↔ ∀ key, s.HoldsKey key ↔ s'.HoldsKey key := by
  constructor
  · intro hfork key
    exact (h.getValue_forkChild_iff key).mp (hfork.getValue key)
  · intro hkeys
    obtain ⟨hs, hs', h⟩ := h
    refine ⟨hs.forkChild, hs'.forkChild, ?_⟩
    rw [toStack_forkChild hs, toStack_forkChild hs', h.fork_iff]
    intro key
    exact (exists_ownFrames_iff s key).trans
      ((hkeys key).trans (exists_ownFrames_iff s' key).symm)

/-- Stores that inherit nothing hold the keys they show. -/
theorem holdsKey_iff (h : Alike s s') (hroot : s.frozenParent = []) (hroot' : s'.frozenParent = [])
    (key : Key) : s.HoldsKey key ↔ s'.HoldsKey key := by
  obtain ⟨hs, hs', h⟩ := h
  have hviews : SameViews (s.inheritedFrames.map Frame.values) (s'.inheritedFrames.map Frame.values)
      s.ownFrames s'.ownFrames := h.views
  have hview := hviews.layered_eq key
  rw [inheritedFrames, inheritedFrames, hroot, hroot', List.map_nil, List.map_nil, List.append_nil,
    List.append_nil, hviews.layered_frames_iff key] at hview
  rw [← exists_ownFrames_iff, ← exists_ownFrames_iff]
  exact hview

end Alike

/-! ## Snapshots -/

theorem captureWithRegistry_congr {registry registry' : Registry U}
    (hreg : registry.SameButCached registry') {s s' : ContextStore U} (h : Alike s s')
    (maxLen : Nat) :
    captureWithRegistry maxLen s registry = captureWithRegistry maxLen s' registry' := by
  unfold captureWithRegistry
  rw [h.collectValues, h.scopeChain]
  congr 2
  funext key _
  rw [hreg.isLocalKey]

theorem storeFromSnapshotWithRegistry_congr {registry registry' : Registry U}
    (hreg : registry.SameButCached registry') (snap : ContextSnapshot U) :
    storeFromSnapshotWithRegistry snap registry = storeFromSnapshotWithRegistry snap registry' := by
  unfold storeFromSnapshotWithRegistry
  congr 2
  funext key value
  rw [hreg.isValidValue, hreg.isLocalKey]

end ContextStore

end DContext
