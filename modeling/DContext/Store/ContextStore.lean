import DContext.Registry.Registration
import DContext.Overlay.Recent

/-!
# The context store

The active context: a current scope over a chain of frozen scopes, and below them the frozen
parent of a fork. The chain of a store, and the frozen parent, are linked lists of immutable
nodes; they are lists here, innermost node first, the tail of a node being its parent.

## Main definitions

* `ScopeNode U`, `ContextStore U`: a frozen scope, and the store
* `ContextStore.new`, `fromValuesWithChain`, `forkChild`: the ways to make a store
* `pushScope`, `popScope`, `setValue`: the ways to change one
* `getValue`, `collectValues`, `scopeChain`: the ways to read one
-/

namespace DContext

open Overlay

variable {U : TypeUniverse}

/-- Maximum number of real scope levels. -/
def maxScopeDepth : Nat := 1024

/-- A frozen scope; its `parent` is the rest of the chain it stands in. -/
structure ScopeNode (U : TypeUniverse) where
  name : Option String
  values : ValueMap U
  depth : Nat
  remoteChain : List String
  remoteChainBaseDepth : Nat
  savedScopeBarrier : Option Nat

/-- The active context state. -/
structure ContextStore (U : TypeUniverse) where
  /-- The field `scope_chain`: the frozen parents of the active scope. -/
  chain : List (ScopeNode U)
  currentValues : ValueMap U
  currentName : Option String
  depth : Nat
  remoteChain : List String
  remoteChainBaseDepth : Nat
  frozenParent : List (ScopeNode U)
  scopeBarrier : Option Nat

/-- The values of popped scopes, dropped once the store is back in its cell. -/
structure ScopeGarbage (U : TypeUniverse) where
  oldValues : ValueMap U

namespace ContextStore

/-- An empty root scope. -/
def new : ContextStore U where
  chain := []
  currentValues := ∅
  currentName := none
  depth := 1
  remoteChain := []
  remoteChainBaseDepth := 0
  frozenParent := []
  scopeBarrier := none

/-- A root scope with the given values and remote chain. -/
def fromValuesWithChain (values : ValueMap U) (remoteChain : List String) : ContextStore U where
  chain := []
  currentValues := values
  currentName := none
  depth := 1
  remoteChain := remoteChain
  remoteChainBaseDepth := 1
  frozenParent := []
  scopeBarrier := none

/-- The active scope as a frozen node. -/
def freeze (s : ContextStore U) (depth : Nat) : ScopeNode U where
  name := s.currentName
  values := s.currentValues
  depth := depth
  remoteChain := s.remoteChain
  remoteChainBaseDepth := s.remoteChainBaseDepth
  savedScopeBarrier := s.scopeBarrier

/-- A child store whose frozen parent is the active scope with its chain. -/
def forkChild (s : ContextStore U) : ContextStore U where
  chain := []
  currentValues := ∅
  currentName := none
  depth := 1
  remoteChain := s.remoteChain
  remoteChainBaseDepth := s.remoteChainBaseDepth
  -- the new node continues with the chain of `s`; the frozen parent of `s` is not linked below it
  frozenParent := s.freeze s.depth :: s.chain
  scopeBarrier := none

/-! ## Reading -/

/-- The loop of `get_value` over the store's own chain, down to the barrier. -/
def lookupAbove (barrier : Nat) (key : Key) : List (ScopeNode U) → Option (ContextValue U)
  | [] => none
  | n :: parent =>
    if n.depth ≤ barrier then none
    else
      match n.values.lookup key with
      | some v => some v
      | none => lookupAbove barrier key parent

/-- The loop of `get_value` over the frozen parent. -/
def lookupFrozen (key : Key) : List (ScopeNode U) → Option (ContextValue U)
  | [] => none
  | n :: parent =>
    match n.values.lookup key with
    | some v => some v
    | none => lookupFrozen key parent

/-- The effective value of a key. -/
def getValue (s : ContextStore U) (key : Key) : Option (ContextValue U) :=
  match s.currentValues.lookup key with
  | some v => some v
  | none =>
    match lookupAbove (s.scopeBarrier.getD 0) key s.chain with
    | some v => some v
    | none => if s.scopeBarrier.isNone then lookupFrozen key s.frozenParent else none

/-- The loop of `collect_values` over the store's own chain: `or_insert` keeps what is there. -/
def collectAbove (barrier : Nat) : List (ScopeNode U) → ValueMap U → ValueMap U
  | [], result => result
  | n :: parent, result =>
    if n.depth ≤ barrier then result else collectAbove barrier parent (result ∪ n.values)

/-- The loop of `collect_values` over the frozen parent. -/
def collectFrozen : List (ScopeNode U) → ValueMap U → ValueMap U
  | [], result => result
  | n :: parent, result => collectFrozen parent (result ∪ n.values)

/-- All effective values. -/
def collectValues (s : ContextStore U) : ValueMap U :=
  let result := collectAbove (s.scopeBarrier.getD 0) s.chain s.currentValues
  if s.scopeBarrier.isNone then collectFrozen s.frozenParent result else result

/-- The loop of `scope_chain` over the store's own chain: names above the base depth, innermost
first. -/
def namesAbove (barrier base : Nat) : List (ScopeNode U) → List String
  | [] => []
  | n :: parent =>
    if n.depth ≤ barrier then []
    else (if n.depth > base then n.name.toList else []) ++ namesAbove barrier base parent

/-- `chain.drain(..start)` when the chain is over the limit. -/
def truncateChain (maxLen : Nat) (chain : List String) : List String :=
  if maxLen > 0 ∧ chain.length > maxLen then chain.drop (chain.length - maxLen) else chain

/-- The scope chain: remote prefix, frozen parent names, local names; `maxLen` is the configured
limit. -/
def scopeChain (maxLen : Nat) (s : ContextStore U) : List String :=
  let localNames :=
    (if s.depth > s.remoteChainBaseDepth then s.currentName.toList else []) ++
      namesAbove (s.scopeBarrier.getD 0) s.remoteChainBaseDepth s.chain
  let parentNames :=
    if s.scopeBarrier.isNone then (s.frozenParent.filterMap ScopeNode.name).reverse else []
  truncateChain maxLen (s.remoteChain ++ parentNames ++ localNames.reverse)

/-! ## Writing -/

/-- Set a value in the current scope. -/
def setValue (key : Key) (value : ContextValue U) (s : ContextStore U) : ContextStore U :=
  { s with currentValues := s.currentValues.insert key value }

/-- Freeze the active scope and open a new one, which starts with the effective values of the
cached keys; past the limit only the depth moves. Returns the new depth. -/
def pushScope (registry : Registry U) (name : Option String) (s : ContextStore U) :
    ContextStore U × Nat :=
  let depth := s.depth + 1
  -- a dead scope: no node, and the name is lost
  if depth > maxScopeDepth + 1 then ({ s with depth := depth }, depth)
  else
    let cachedValues := Map.collect registry.cachedKeys s.getValue
    ({ s with
        chain := s.freeze (depth - 1) :: s.chain
        currentName := name
        currentValues := Map.extend ∅ cachedValues
        depth := depth },
      depth)

/-- The dead iterations of the loop of `pop_scope`: the counter falls while it is over the limit
and not below the expected depth. -/
def popDead (expectedDepth : Nat) : Nat → Nat
  | 0 => 0
  | d + 1 =>
    if d + 1 ≥ expectedDepth ∧ d + 1 > maxScopeDepth + 1 then popDead expectedDepth d else d + 1

/-- The store restored from a node that nobody else owns: its fields are moved out. -/
def restoreOwned (owned : ScopeNode U) (parent : List (ScopeNode U)) (s : ContextStore U) :
    ContextStore U :=
  { s with
    chain := parent
    currentName := owned.name
    currentValues := owned.values
    depth := owned.depth
    remoteChain := owned.remoteChain
    remoteChainBaseDepth := owned.remoteChainBaseDepth
    scopeBarrier := owned.savedScopeBarrier }

/-- The store restored from a node that others own too: its fields are cloned, the values one by
one into a new map. -/
def restoreShared (shared : ScopeNode U) (parent : List (ScopeNode U)) (s : ContextStore U) :
    ContextStore U :=
  { s with
    chain := parent
    currentName := shared.name
    currentValues := Map.collect shared.values.keys fun k => shared.values.lookup k
    depth := shared.depth
    remoteChain := shared.remoteChain
    remoteChainBaseDepth := shared.remoteChainBaseDepth
    scopeBarrier := shared.savedScopeBarrier }

/-- Accumulate the values of one more popped scope. -/
def addGarbage (oldCurrent : ValueMap U) : Option (ValueMap U) → ValueMap U
  | some existing => existing.extend oldCurrent
  | none => oldCurrent

/-- The loop of `pop_scope`, along the chain: the dead iterations, then one node. `shared` tells
for the chain at hand whether its first node has other owners, that is, which way
`Arc::try_unwrap` goes. -/
def popLoop (shared : List (ScopeNode U) → Bool) (expectedDepth : Nat) :
    List (ScopeNode U) → ContextStore U → Option (ValueMap U) →
      ContextStore U × Option (ValueMap U)
  | [], s, allOld => ({ s with depth := popDead expectedDepth s.depth }, allOld)
  | node :: parent, s, allOld =>
    let depth := popDead expectedDepth s.depth
    if depth ≥ expectedDepth ∧ depth > 1 then
      popLoop shared expectedDepth parent
        (if shared (node :: parent) then restoreShared node parent s
          else restoreOwned node parent s)
        (some (addGarbage s.currentValues allOld))
    else ({ s with depth := depth }, allOld)

/-- Pop scopes down to the expected depth. -/
def popScope (shared : List (ScopeNode U) → Bool) (expectedDepth : Nat) (s : ContextStore U) :
    ContextStore U × Option (ScopeGarbage U) :=
  if s.depth < expectedDepth ∨ expectedDepth ≤ 1 then (s, none)
  else
    -- no garbage when only dead scopes were popped
    let r := popLoop shared expectedDepth s.chain s none
    (r.1, r.2.map .mk)

end ContextStore

end DContext
