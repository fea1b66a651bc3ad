import DContext.Store.WellFormed

/-!
# Snapshots

A snapshot is what a store shows: its effective values without the local-only ones, and its scope
chain. It becomes a root store again, without the values that the registry does not accept.

## Main definitions

* `ContextSnapshot U`: values and scope chain
* `captureWithRegistry`, `storeFromSnapshotWithRegistry`: from a store, and back to one
* `recaptured`: the store converted from the capture of a store

## Main results

* `lookup_captureWithRegistry`: the values a capture holds
* `getValue_storeFromSnapshot`, `scopeChain_storeFromSnapshot`: the view of a converted store
* `recaptured_keeps_valid`: capture and conversion keep the accepted part of the view
-/

namespace DContext

open Overlay

variable {U : TypeUniverse}

/-- An immutable snapshot of a context. -/
structure ContextSnapshot (U : TypeUniverse) where
  values : ValueMap U
  scopeChain : List String

/-- `ContextSnapshot::empty`. -/
def ContextSnapshot.empty : ContextSnapshot U := ⟨∅, []⟩

/-- `capture_with_registry`; `maxLen` is the configured limit on scope chains. -/
def captureWithRegistry (maxLen : Nat) (store : ContextStore U) (registry : Registry U) :
    ContextSnapshot U where
  values := store.collectValues.filter fun k _ => !registry.isLocalKey k
  scopeChain := store.scopeChain maxLen

/-- `store_from_snapshot_with_registry`. -/
def storeFromSnapshotWithRegistry (snap : ContextSnapshot U) (registry : Registry U) :
    ContextStore U :=
  .fromValuesWithChain
    (snap.values.filter fun k v => registry.isValidValue k v && !registry.isLocalKey k)
    snap.scopeChain

theorem lookup_captureWithRegistry (maxLen : Nat) (store : ContextStore U)
    (registry : Registry U) (key : Key) :
    (captureWithRegistry maxLen store registry).values.lookup key =
      if registry.isLocalKey key then none else store.getValue key := by
  rw [captureWithRegistry, Map.lookup_filter, ContextStore.lookup_collectValues]
  cases store.getValue key with
  | none => simp
  | some v => cases h : registry.isLocalKey key <;> simp [Option.filter]

theorem storeFromSnapshot_reachable (snap : ContextSnapshot U) (registry : Registry U) :
    (storeFromSnapshotWithRegistry snap registry).Reachable := .fromValuesWithChain _ _

/-- A converted store shows the values of its snapshot that the registry accepts. -/
theorem getValue_storeFromSnapshot (snap : ContextSnapshot U) (registry : Registry U)
    (key : Key) :
    (storeFromSnapshotWithRegistry snap registry).getValue key =
      (snap.values.lookup key).filter fun v =>
        registry.isValidValue key v && !registry.isLocalKey key := by
  rw [storeFromSnapshotWithRegistry, ContextStore.getValue_fromValuesWithChain, Map.lookup_filter]

/-- A converted store has no names of its own, so it shows the chain of its snapshot. -/
theorem scopeChain_storeFromSnapshot (maxLen : Nat) (snap : ContextSnapshot U)
    (registry : Registry U) :
    (storeFromSnapshotWithRegistry snap registry).scopeChain maxLen =
      keepLast maxLen snap.scopeChain := by
  rw [(storeFromSnapshot_reachable snap registry).wellFormed.scopeChain_eq,
    storeFromSnapshotWithRegistry, ContextStore.fromValuesWithChain, ContextStore.inheritedFrames,
    ContextStore.ownFrames]
  simp

/-! ## Capture and conversion -/

/-- The store converted from the capture of a store. -/
def recaptured (maxLen : Nat) (registry : Registry U) (store : ContextStore U) : ContextStore U :=
  storeFromSnapshotWithRegistry (captureWithRegistry maxLen store registry) registry

theorem accepts_iff (registry : Registry U) (key : Key) (value : ContextValue U) :
    (registry.isValidValue key value && !registry.isLocalKey key) = true ↔
      ∃ reg, registry.map.lookup key = some reg ∧ reg.localOnly = false ∧
        value.typeId = reg.typeId := by
  unfold Registry.isValidValue Registry.isLocalKey
  cases registry.map.lookup key with
  | none => simp
  | some reg =>
    simp only [Option.any_some, Bool.and_eq_true, decide_eq_true_eq, Bool.not_eq_true',
      Option.some.injEq, exists_eq_left']
    rw [and_comm, eq_comm (a := reg.typeId)]

/-- The capture of a store loses no value that the conversion would keep. -/
theorem getValue_recaptured (maxLen : Nat) (registry : Registry U) (store : ContextStore U)
    (key : Key) (value : ContextValue U) :
    (recaptured maxLen registry store).getValue key = some value ↔
      store.getValue key = some value ∧
        (registry.isValidValue key value && !registry.isLocalKey key) = true := by
  rw [recaptured, getValue_storeFromSnapshot, lookup_captureWithRegistry,
    Option.filter_eq_some_iff]
  constructor
  · rintro ⟨hvalue, haccepts⟩
    split_ifs at hvalue
    exact ⟨hvalue, haccepts⟩
  · rintro ⟨hvalue, haccepts⟩
    have hlocal : registry.isLocalKey key = false := by
      rw [Bool.and_eq_true, Bool.not_eq_true'] at haccepts
      exact haccepts.2
    rw [if_neg (ne_true_of_eq_false hlocal)]
    exact ⟨hvalue, haccepts⟩

theorem scopeChain_recaptured (maxLen : Nat) (registry : Registry U) (store : ContextStore U) :
    (recaptured maxLen registry store).scopeChain maxLen = store.scopeChain maxLen := by
  rw [recaptured, scopeChain_storeFromSnapshot]
  exact store.keepLast_scopeChain maxLen

/-- What was captured and converted is not changed by doing so again. -/
theorem recaptured_recaptured (maxLen : Nat) (registry : Registry U) (store : ContextStore U) :
    recaptured maxLen registry (recaptured maxLen registry store) =
      recaptured maxLen registry store := by
  have hvalues : ∀ key,
      (recaptured maxLen registry (recaptured maxLen registry store)).getValue key =
        (recaptured maxLen registry store).getValue key := by
    intro key
    ext value
    rw [getValue_recaptured, and_iff_left_iff_imp, getValue_recaptured]
    exact And.right
  have hchain := scopeChain_recaptured maxLen registry store
  unfold recaptured at *
  unfold storeFromSnapshotWithRegistry at *
  congr 1
  apply Finmap.ext_lookup
  intro key
  have hkey := hvalues key
  rwa [ContextStore.getValue_fromValuesWithChain, ContextStore.getValue_fromValuesWithChain] at hkey

/-- **Capture and conversion** keep the values that the registry accepts and the scope chain, of
every store, and doing both again changes nothing. -/
theorem recaptured_keeps_valid (maxLen : Nat) (registry : Registry U) (store : ContextStore U) :
    (∀ key value, (recaptured maxLen registry store).getValue key = some value ↔
        store.getValue key = some value ∧
          ∃ reg, registry.map.lookup key = some reg ∧ reg.localOnly = false ∧
            value.typeId = reg.typeId) ∧
      (recaptured maxLen registry store).scopeChain maxLen = store.scopeChain maxLen ∧
      recaptured maxLen registry (recaptured maxLen registry store) =
        recaptured maxLen registry store := by
  refine ⟨fun key value => ?_, scopeChain_recaptured maxLen registry store,
    recaptured_recaptured maxLen registry store⟩
  rw [getValue_recaptured, accepts_iff]

end DContext
