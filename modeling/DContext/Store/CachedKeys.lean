import DContext.Overlay.Fronted
import DContext.Store.Caching

/-!
# Cached keys in the active scope

A push copies the effective values of the cached keys into the new scope, so that they need not be
looked up below it. All other operations on a store keep that, but for a fork: the root scope of a
child is empty, and the cached values of its parent are found in the frozen parent.

## Main definitions

* `CachedInFront registry s`: what a cached key shows is in the active scope
* `FrameOp U`, `frameStep`: what changes the active scope of a store, as a step system
* `ForksNoCached registry s op`: a fork is made from scopes that hold no cached key

## Main results

* `frameStep_fronted`: every operation but such a fork keeps the cached keys in front, at all
  levels of the store
* `cachedInFront_iff`: when they are, in every state of a run
-/

namespace DContext

open Overlay StepSystem

variable {U : TypeUniverse}

theorem Registry.mem_cachedKeys {registry : Registry U} {key : Key} :
    key ∈ registry.cachedKeys ↔
      ∃ reg, registry.map.lookup key = some reg ∧ reg.cached = true := by
  unfold Registry.cachedKeys
  rw [Finset.mem_filter, Finmap.mem_keys, Finmap.mem_iff]
  cases registry.map.lookup key with
  | none => simp
  | some reg => simp

namespace ContextStore

/-- A value that is shown under a cached key is held by the active scope. -/
def CachedInFront (registry : Registry U) (s : ContextStore U) : Prop :=
  ∀ key reg, registry.map.lookup key = some reg → reg.cached = true →
    ∀ value, s.getValue key = some value → s.currentValues.lookup key = some value

/-- What changes the active scope of a store, or makes another store of it. -/
inductive FrameOp (U : TypeUniverse)
  | pushScope (name : Option String)
  | popScope (shared : List (ScopeNode U) → Bool) (expectedDepth : Nat)
  | setValue (key : Key) (value : ContextValue U)
  | mergeWith (source : ContextStore U)
  | forkChild
  | fromSnapshot (snap : ContextSnapshot U)

/-- A store under one registry, as a step system. -/
def frameStep (registry : Registry U) (s : ContextStore U) : FrameOp U → ContextStore U × Unit
  | .pushScope name => ((s.pushScope registry name).1, ())
  | .popScope shared e => ((s.popScope shared e).1, ())
  | .setValue key value => (s.setValue key value, ())
  | .mergeWith source => (s.mergeWith source, ())
  | .forkChild => (s.forkChild, ())
  | .fromSnapshot snap => (storeFromSnapshotWithRegistry snap registry, ())

/-- When the store is forked, none of its own scopes holds a cached key. -/
def ForksNoCached (registry : Registry U) (s : ContextStore U) : FrameOp U → Prop
  | .forkChild => ∀ key reg, registry.map.lookup key = some reg → reg.cached = true →
      ¬ s.HoldsKey key
  | _ => True

/-- The cached keys are in front at every level of the store. -/
def Fronted (registry : Registry U) (s : ContextStore U) : Prop :=
  ∃ h : s.WellFormed, (s.toStack h).Fronted registry.cachedKeys

namespace Fronted

variable {registry : Registry U} {s : ContextStore U}

theorem cachedInFront (h : Fronted registry s) : CachedInFront registry s := by
  obtain ⟨hwf, hfronted⟩ := h
  intro key reg hreg hcached value hvalue
  have hseen := hfronted.1 key (Registry.mem_cachedKeys.mpr ⟨reg, hreg, hcached⟩)
  rw [hwf.getValue_eq, List.map_append] at hvalue
  exact hseen.symm.trans hvalue

theorem fromValuesWithChain (registry : Registry U) (values : ValueMap U)
    (remoteChain : List String) : Fronted registry (fromValuesWithChain values remoteChain) :=
  ⟨.fromValuesWithChain values remoteChain, .single registry.cachedKeys ⟨none, values⟩⟩

theorem new (registry : Registry U) : Fronted registry (new : ContextStore U) :=
  ⟨.new, .single registry.cachedKeys ⟨none, ∅⟩⟩

theorem pushScope (h : Fronted registry s) (name : Option String) :
    Fronted registry (s.pushScope registry name).1 := by
  obtain ⟨hwf, hfronted⟩ := h
  refine ⟨hwf.pushScope registry name, ?_⟩
  rw [toStack_pushScope hwf]
  exact hfronted.push name

theorem popScope (h : Fronted registry s) (shared : List (ScopeNode U) → Bool) (e : Nat) :
    Fronted registry (s.popScope shared e).1 := by
  obtain ⟨hwf, hfronted⟩ := h
  refine ⟨hwf.popScope shared e, ?_⟩
  rw [toStack_popScope hwf]
  exact hfronted.pop e

theorem overwrite (h : Fronted registry s) (m : ValueMap U) :
    Fronted registry (s.overwrite m) := by
  obtain ⟨hwf, hfronted⟩ := h
  refine ⟨hwf.withValues _, ?_⟩
  rw [toStack_overwrite hwf]
  exact hfronted.overwrite m

end Fronted

/-- **A fork** of a store has the cached keys in front exactly when no own scope of the store
holds one. -/
theorem fronted_forkChild_iff {registry : Registry U} {s : ContextStore U} (h : s.WellFormed) :
    Fronted registry s.forkChild ↔
      ∀ key reg, registry.map.lookup key = some reg → reg.cached = true → ¬ s.HoldsKey key := by
  have hstack : Fronted registry s.forkChild ↔
      (s.toStack h).fork.Fronted registry.cachedKeys := by
    rw [← toStack_forkChild h]
    exact ⟨fun ⟨_, hfork⟩ => hfork, fun hfork => ⟨h.forkChild, hfork⟩⟩
  have hframes : (s.toStack h).fork.Fronted registry.cachedKeys ↔
      ∀ key ∈ registry.cachedKeys, ∀ f ∈ s.ownFrames, key ∉ f.values :=
    CappedStack.fronted_fork_iff
  rw [hstack, hframes]
  simp only [Registry.mem_cachedKeys, ← exists_ownFrames_iff, not_exists, not_and,
    forall_exists_index, and_imp]

/-- **One operation**: any but a fork that leaves cached keys behind. -/
theorem frameStep_fronted (registry : Registry U) (s : ContextStore U) (op : FrameOp U)
    (h : Fronted registry s) (hop : ForksNoCached registry s op) :
    Fronted registry (frameStep registry s op).1 := by
  cases op with
  | pushScope name => exact h.pushScope name
  | popScope shared e => exact h.popScope shared e
  | setValue key value => exact h.overwrite (Finmap.singleton key value)
  | mergeWith source => exact h.overwrite source.collectValues
  | forkChild =>
    obtain ⟨hwf, -⟩ := h
    exact (fronted_forkChild_iff hwf).mpr hop
  | fromSnapshot snap => exact .fromValuesWithChain registry _ _

theorem frameStep_wellFormed (registry : Registry U) (s : ContextStore U) (op : FrameOp U)
    (h : s.WellFormed) : (frameStep registry s op).1.WellFormed := by
  cases op with
  | pushScope name => exact h.pushScope registry name
  | popScope shared e => exact h.popScope shared e
  | setValue key value => exact h.setValue key value
  | mergeWith source => exact h.mergeWith source
  | forkChild => exact h.forkChild
  | fromSnapshot snap => exact .fromValuesWithChain _ _

/-- A child whose parent holds a cached key shows it, and does not hold it. -/
theorem not_cachedInFront_forkChild {registry : Registry U} {s : ContextStore U}
    (h : s.WellFormed) {key : Key} {reg : Registration U}
    (hreg : registry.map.lookup key = some reg) (hcached : reg.cached = true)
    (hholds : s.HoldsKey key) : ¬ CachedInFront registry s.forkChild := by
  intro hfront
  obtain ⟨f, hf, hmem⟩ := (s.exists_ownFrames_iff key).mpr hholds
  have hsees : s.forkChild.getValue key ≠ none := by
    rw [getValue_forkChild h, ne_eq, layered_eq_none]
    intro hnone
    exact hnone f.values (List.mem_map_of_mem hf) hmem
  obtain ⟨value, hvalue⟩ := Option.ne_none_iff_exists'.mp hsees
  cases hfront key reg hreg hcached value hvalue

/-- **Cached keys are in front** in every state of a run exactly when every fork of the run is made
from scopes that hold none. -/
theorem cachedInFront_iff (registry : Registry U) (ops : List (FrameOp U)) :
    (∀ pre post, ops = pre ++ post →
        CachedInFront registry (run (frameStep registry) .new pre).1) ↔
      Along (frameStep registry) (ForksNoCached registry) .new ops := by
  constructor
  · intro hfront
    by_contra hnot
    obtain ⟨pre, op, post, rfl, -, hop⟩ := exists_first_break ops _ hnot
    have hwf : (run (frameStep registry) .new pre).1.WellFormed :=
      run_invariant (frameStep_wellFormed registry) pre _ .new
    cases op with
    | forkChild =>
      have hchild := hfront (pre ++ [.forkChild]) post (by simp)
      rw [run_append] at hchild
      apply hop
      intro key reg hreg hcached hholds
      exact not_cachedInFront_forkChild hwf hreg hcached hholds hchild
    | pushScope name => exact hop trivial
    | popScope shared e => exact hop trivial
    | setValue key value => exact hop trivial
    | mergeWith source => exact hop trivial
    | fromSnapshot snap => exact hop trivial
  · rintro halong pre post rfl
    have hpre := ((along_append _ pre post).mp halong).1
    exact (run_along (frameStep_fronted registry) pre _ (.new registry) hpre).cachedInFront

/-- A registry with one cached key. -/
def cachedUser : Registry primitiveTypes :=
  ⟨buildMap [.register .u64 "user" [.cached]]⟩

/-- A fork shows the cached value of its parent, and its active scope does not hold it. -/
theorem fork_hides_cached :
    (run (frameStep cachedUser) .new [.setValue "user" (u64Value 7), .forkChild]).1.getValue
        "user" = some (u64Value 7) ∧
      ¬ CachedInFront cachedUser
        (run (frameStep cachedUser) .new [.setValue "user" (u64Value 7), .forkChild]).1 := by
  have hreg : cachedUser.map.lookup "user" =
      some (newRegistration PrimitiveType.u64 "user" (.configure [.cached])) := rfl
  have hvalue : (run (frameStep cachedUser) .new
      [.setValue "user" (u64Value 7), .forkChild]).1.getValue "user" = some (u64Value 7) := rfl
  refine ⟨hvalue, fun hfront => ?_⟩
  cases hfront "user" _ hreg rfl _ hvalue

end ContextStore

end DContext
