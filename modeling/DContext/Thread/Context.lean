import DContext.Wire.Envelope

/-!
# The context of a thread

A thread keeps its store in a cell, which is empty while a store is taken out of it. The public
functions act on that cell under the global registry and the configured limits; the two guards
undo a push and an attach when they are dropped.

## Main definitions

* `Cell U`: the content of `CONTEXT`
* `Globals U`: the frozen registry and the limits
* `IterationOrder U`: the orders in which maps are iterated
* `tryApply`: access to the store in the cell
* `Thread.pushScope`, `Thread.attachStore`, ...: the public functions
* `ScopeGuard`, `AttachGuard U`: the guards, and what dropping them does

## Main results

* `Thread.scopeGuard_drop`: dropping a scope guard pops to its depth, unless it is the no-op guard
-/

namespace DContext

open Overlay

variable {U : TypeUniverse}

/-- The content of the thread-local `CONTEXT`. -/
abbrev Cell (U : TypeUniverse) := Option (ContextStore U)

/-- The process-wide state: the registry frozen by `initialize`, and the two limits, where 0 means
no limit. -/
structure Globals (U : TypeUniverse) where
  registry : Registry U
  maxContextSize : Nat
  maxScopeChainLen : Nat

/-- The limits before any call of their setters. -/
def Globals.withRegistry (registry : Registry U) : Globals U where
  registry := registry
  maxContextSize := 0
  maxScopeChainLen := 64

/-- An order in which each map is iterated: a `HashMap` promises none. -/
structure IterationOrder (U : TypeUniverse) where
  list : ValueMap U → List (Σ _ : Key, ContextValue U)
  enumerates : ∀ m, Enumerates (list m) m

namespace ContextSnapshot

/-- `ContextSnapshot::serialize`. -/
def serialize (g : Globals U) (iter : IterationOrder U) (snap : ContextSnapshot U) :
    Except ContextError Bytes :=
  serializeFrom g.maxContextSize g.registry (iter.list snap.values) snap.scopeChain

/-- `ContextSnapshot::deserialize`. -/
def deserialize (g : Globals U) (bytes : Bytes) : Except ContextError (ContextSnapshot U) :=
  deserializeToSnapshot g.registry bytes

end ContextSnapshot

/-- Take the store out of the cell, run `f` on it and put it back. -/
def tryApply {R : Type} (cell : Cell U) (f : ContextStore U → ContextStore U × R) :
    Cell U × Option R :=
  match cell with
  -- an empty cell: `f` does not run, and the caller falls back on its default
  | none => (none, none)
  | some store => (some (f store).1, some (f store).2)

@[simp] theorem tryApply_none {R : Type} (f : ContextStore U → ContextStore U × R) :
    tryApply none f = (none, none) := rfl

@[simp] theorem tryApply_some {R : Type} (store : ContextStore U)
    (f : ContextStore U → ContextStore U × R) :
    tryApply (some store) f = (some (f store).1, some (f store).2) := rfl

/-! ## Guards -/

/-- `usize::MAX`. -/
def usizeMax : Nat := 2 ^ 64 - 1

/-- Reverts a scope on drop. -/
structure ScopeGuard where
  expectedDepth : Nat

/-- The guard of a push that found no store. -/
def ScopeGuard.noop : ScopeGuard := ⟨usizeMax⟩

/-- Restores the previous content of the cell on drop. -/
structure AttachGuard (U : TypeUniverse) where
  prev : Cell U

/-- `leave_scope`. -/
def leaveScope (shared : List (ScopeNode U) → Bool) (expectedDepth : Nat) (cell : Cell U) :
    Cell U :=
  if expectedDepth = usizeMax then cell
  else (tryApply cell fun store => store.popScope shared expectedDepth).1

/-- Dropping a scope guard. -/
def ScopeGuard.drop (shared : List (ScopeNode U) → Bool) (guard : ScopeGuard) (cell : Cell U) :
    Cell U :=
  leaveScope shared guard.expectedDepth cell

/-- Dropping an attach guard: the previous content replaces whatever is in the cell. -/
def AttachGuard.drop (guard : AttachGuard U) : Cell U := guard.prev

namespace Thread

/-! ## The public functions -/

/-- `push_scope`. -/
def pushScope (g : Globals U) (name : String) (cell : Cell U) : Cell U × ScopeGuard :=
  let r := tryApply cell fun store => store.pushScope g.registry (some name)
  (r.1, (r.2.map .mk).getD .noop)

/-- `scope_chain`. -/
def scopeChain (g : Globals U) (cell : Cell U) : List String :=
  (tryApply cell fun store => (store, store.scopeChain g.maxScopeChainLen)).2.getD []

/-- `set_context_variable`. -/
def setContextVariable (t : U.TypeId) (key : Key) (value : U.El t) (cell : Cell U) : Cell U :=
  (tryApply cell fun store => (store.setValue key ⟨t, value⟩, ())).1

/-- `get_context_variable`. -/
def getContextVariable (t : U.TypeId) (key : Key) (cell : Cell U) : Option (U.El t) :=
  (tryApply cell fun store => (store, (store.getValue key).bind (·.downcast t))).2.join

/-- `update_context_variable`: read, apply the callback, write. -/
def updateContextVariable (t : U.TypeId) (key : Key) (f : U.El t → U.El t) (cell : Cell U) :
    Cell U :=
  setContextVariable t key (f ((getContextVariable t key cell).getD (U.default t))) cell

/-- `capture`. -/
def capture (g : Globals U) (cell : Cell U) : ContextSnapshot U :=
  (tryApply cell fun store =>
    (store, captureWithRegistry g.maxScopeChainLen store g.registry)).2.getD .empty

/-- `fork`. -/
def fork (cell : Cell U) : ContextStore U :=
  (tryApply cell fun store => (store, store.forkChild)).2.getD .new

/-- `attach_store`. -/
def attachStore (store : ContextStore U) (cell : Cell U) : Cell U × AttachGuard U :=
  (some store, ⟨cell⟩)

/-- `attach_snapshot`. -/
def attachSnapshot (g : Globals U) (snap : ContextSnapshot U) (cell : Cell U) :
    Cell U × AttachGuard U :=
  attachStore (storeFromSnapshotWithRegistry snap g.registry) cell

/-- `attach_snapshot_with_scope`. -/
def attachSnapshotWithScope (g : Globals U) (snap : ContextSnapshot U) (name : String)
    (cell : Cell U) : Cell U × AttachGuard U × ScopeGuard :=
  let attached := attachSnapshot g snap cell
  let pushed := pushScope g name attached.1
  (pushed.1, attached.2, pushed.2)

/-- `capture_serialized`. -/
def captureSerialized (g : Globals U) (iter : IterationOrder U) (cell : Cell U) :
    Except ContextError Bytes :=
  (capture g cell).serialize g iter

/-- `attach_from_bytes`: a failed read leaves the cell as it is. -/
def attachFromBytes (g : Globals U) (bytes : Bytes) (cell : Cell U) :
    Except ContextError (Cell U × AttachGuard U) :=
  match ContextSnapshot.deserialize g bytes with
  | .error e => .error e
  | .ok snap => .ok (attachSnapshot g snap cell)

/-- `merge_with`. -/
def mergeWith (source : ContextStore U) (cell : Cell U) : Cell U :=
  (tryApply cell fun store => (store.mergeWith source, ())).1

/-- `clear`. -/
def clear (cell : Cell U) : Cell U :=
  (tryApply cell fun _ => (.new, ())).1

/-! ## What they do to the store in the cell -/

@[simp] theorem pushScope_some (g : Globals U) (name : String) (store : ContextStore U) :
    pushScope g name (some store) =
      (some (store.pushScope g.registry (some name)).1, ⟨store.depth + 1⟩) := by
  simp only [pushScope, tryApply_some, Option.map_some, Option.getD_some]
  rw [ContextStore.pushScope_snd]

@[simp] theorem pushScope_none (g : Globals U) (name : String) :
    pushScope g name (none : Cell U) = (none, .noop) := rfl

/-- **Dropping a scope guard** pops to its depth, unless it is the no-op guard. -/
theorem scopeGuard_drop (shared : List (ScopeNode U) → Bool) (guard : ScopeGuard)
    (store : ContextStore U) :
    guard.drop shared (some store) =
      some (if guard.expectedDepth = usizeMax then store
        else (store.popScope shared guard.expectedDepth).1) := by
  unfold ScopeGuard.drop leaveScope
  split_ifs <;> rfl

@[simp] theorem scopeGuard_drop_none (shared : List (ScopeNode U) → Bool) (guard : ScopeGuard) :
    guard.drop shared (none : Cell U) = none := by
  unfold ScopeGuard.drop leaveScope
  split_ifs <;> rfl

theorem fork_some (store : ContextStore U) : fork (some store) = store.forkChild := rfl

theorem fork_reachable {cell : Cell U} (h : ∀ store ∈ cell, store.Reachable) :
    (fork cell).Reachable := by
  cases cell with
  | none => exact .new
  | some store => exact (h store rfl).forkChild

end Thread

end DContext
