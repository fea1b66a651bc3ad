import DContext.Sharing.Owners
import DContext.Store.Ownership
import DContext.System.Run

/-!
# Stores that share scope nodes

In memory a store holds its frozen scopes through `Arc`s: a push moves the chain into a new node,
a fork shares the chain with its child, and a pop moves a node out when nobody else holds it and
clones it otherwise. The stores of `ContextStore` hold lists instead and share nothing. Here both
are put under one interface, and the stores in memory are related to the others.

## Main definitions

* `ArcStore U`, `ArcStore.pushScope`, `popScope`, `forkChild`, `drop`: a store in memory
* `ArcStore.deref h s`: the store that its references stand for
* `StoreImpl U H S`, `StoreImpl.step`: the stores of a process, in either representation
* `arcImpl registry`, `plainImpl registry shared`: the two representations
* `Stands h s p`: the references of `s` stand for `p`

## Main results

* `Stands.pushScope`, `Stands.popScope`, `Stands.forkChild`: each operation
* `arc_run_refines`: along every run the stores in memory answer as stores that share nothing
* `arc_run_live_iff`, `arc_run_live_le`: which nodes are live after a run, and how many
-/

namespace DContext

open Overlay RefHeap StepSystem

variable {U : TypeUniverse}

/-- The scope nodes in memory. The `parent` of a node is its link. -/
abbrev ScopeHeap (U : TypeUniverse) := Heap (ScopeNode U)

/-- The active context state, with the nodes it holds by reference. -/
structure ArcStore (U : TypeUniverse) where
  scopeChain : Option Addr
  currentValues : ValueMap U
  currentName : Option String
  depth : Nat
  remoteChain : List String
  remoteChainBaseDepth : Nat
  frozenParent : Option Addr
  scopeBarrier : Option Nat

namespace ArcStore

/-- An empty root scope. -/
def new : ArcStore U where
  scopeChain := none
  currentValues := ∅
  currentName := none
  depth := 1
  remoteChain := []
  remoteChainBaseDepth := 0
  frozenParent := none
  scopeBarrier := none

/-- A root scope with the given values and remote chain. -/
def fromValuesWithChain (values : ValueMap U) (remoteChain : List String) : ArcStore U where
  scopeChain := none
  currentValues := values
  currentName := none
  depth := 1
  remoteChain := remoteChain
  remoteChainBaseDepth := 1
  frozenParent := none
  scopeBarrier := none

/-- The store with lists of nodes for its references. -/
def view (s : ArcStore U) (chain frozenParent : List (ScopeNode U)) : ContextStore U where
  chain := chain
  currentValues := s.currentValues
  currentName := s.currentName
  depth := s.depth
  remoteChain := s.remoteChain
  remoteChainBaseDepth := s.remoteChainBaseDepth
  frozenParent := frozenParent
  scopeBarrier := s.scopeBarrier

/-- The store that the references stand for. The loops that read a store go along the links. -/
def deref (h : ScopeHeap U) (s : ArcStore U) : ContextStore U :=
  s.view ((h.walk s.scopeChain).map Prod.snd) ((h.walk s.frozenParent).map Prod.snd)

/-- The references that a store holds. -/
def refs (s : ArcStore U) : Multiset Addr := refsOf s.scopeChain + refsOf s.frozenParent

/-- The active scope as a frozen node. -/
def freeze (s : ArcStore U) (depth : Nat) : ScopeNode U where
  name := s.currentName
  values := s.currentValues
  depth := depth
  remoteChain := s.remoteChain
  remoteChainBaseDepth := s.remoteChainBaseDepth
  savedScopeBarrier := s.scopeBarrier

/-- A child store whose frozen parent is a new node with the active scope. -/
def forkChild (h : ScopeHeap U) (s : ArcStore U) : ScopeHeap U × ArcStore U :=
  -- `parent: self.scope_chain.clone()`
  let frozen := (h.retain s.scopeChain).alloc (s.freeze s.depth) s.scopeChain
  (frozen.1,
    { scopeChain := none
      currentValues := ∅
      currentName := none
      depth := 1
      remoteChain := s.remoteChain
      remoteChainBaseDepth := s.remoteChainBaseDepth
      frozenParent := some frozen.2
      scopeBarrier := none })

/-- Freeze the active scope and open a new one. -/
def pushScope (registry : Registry U) (name : Option String) (h : ScopeHeap U) (s : ArcStore U) :
    (ScopeHeap U × ArcStore U) × Nat :=
  let depth := s.depth + 1
  if depth > maxScopeDepth + 1 then ((h, { s with depth := depth }), depth)
  else
    let cachedValues := Map.collect registry.cachedKeys (s.deref h).getValue
    -- `parent: self.scope_chain.take()`: the reference moves into the node
    let node := h.alloc (s.freeze (depth - 1)) s.scopeChain
    ((node.1,
      { s with
        scopeChain := some node.2
        currentName := name
        currentValues := Map.extend ∅ cachedValues
        depth := depth }),
      depth)

/-- The store restored from a node moved out of its `Arc`. -/
def restoreOwned (owned : Node (ScopeNode U)) (s : ArcStore U) : ArcStore U :=
  { s with
    scopeChain := owned.parent
    currentName := owned.val.name
    currentValues := owned.val.values
    depth := owned.val.depth
    remoteChain := owned.val.remoteChain
    remoteChainBaseDepth := owned.val.remoteChainBaseDepth
    scopeBarrier := owned.val.savedScopeBarrier }

/-- The store restored from a node that others hold too. -/
def restoreShared (shared : Node (ScopeNode U)) (s : ArcStore U) : ArcStore U :=
  { s with
    scopeChain := shared.parent
    currentName := shared.val.name
    currentValues := Map.collect shared.val.values.keys fun k => shared.val.values.lookup k
    depth := shared.val.depth
    remoteChain := shared.val.remoteChain
    remoteChainBaseDepth := shared.val.remoteChainBaseDepth
    scopeBarrier := shared.val.savedScopeBarrier }

/-- The loop of `pop_scope`, `fuel` iterations at most that restore a node. -/
def popLoop (expectedDepth : Nat) :
    Nat → ScopeHeap U → ArcStore U → Option (ValueMap U) →
      (ScopeHeap U × ArcStore U) × Option (ValueMap U)
  | 0, h, s, allOld => ((h, s), allOld)
  | fuel + 1, h, s, allOld =>
    let depth := ContextStore.popDead expectedDepth s.depth
    if depth ≥ expectedDepth ∧ depth > 1 then
      match s.scopeChain with
      | none => ((h, { s with depth := depth }), allOld)
      | some a =>
        match h.node a with
        | none => ((h, { s with depth := depth }), allOld)
        | some node =>
          let old := some (ContextStore.addGarbage s.currentValues allOld)
          -- `Arc::try_unwrap`
          if node.count = 1 then
            popLoop expectedDepth fuel (h.free a) (restoreOwned node s) old
          else
            -- `shared.parent.clone()`, and `shared` is dropped after the fields are cloned
            popLoop expectedDepth fuel ((h.retain node.parent).release (some a))
              (restoreShared node s) old
    else ((h, { s with depth := depth }), allOld)

/-- Pop scopes down to the expected depth. A chain has no more nodes than there are. -/
def popScope (expectedDepth : Nat) (h : ScopeHeap U) (s : ArcStore U) :
    (ScopeHeap U × ArcStore U) × Option (ScopeGarbage U) :=
  if s.depth < expectedDepth ∨ expectedDepth ≤ 1 then ((h, s), none)
  else
    let r := popLoop expectedDepth (h.length + 1) h s none
    (r.1, r.2.map .mk)

/-- Set a value in the current scope. -/
def setValue (key : Key) (value : ContextValue U) (s : ArcStore U) : ArcStore U :=
  { s with currentValues := s.currentValues.insert key value }

/-- The loop of `merge_with`. -/
def extend (values : ValueMap U) (s : ArcStore U) : ArcStore U :=
  { s with currentValues := s.currentValues.extend values }

/-- Dropping a store drops its two references. -/
def drop (h : ScopeHeap U) (s : ArcStore U) : ScopeHeap U :=
  (h.release s.scopeChain).release s.frozenParent

end ArcStore

/-! ## The stores of a process -/

/-- What is done with one store. -/
inductive StoreCall (U : TypeUniverse)
  | pushScope (name : Option String)
  | popScope (expectedDepth : Nat)
  | setValue (key : Key) (value : ContextValue U)
  | clear
  | getValue (key : Key)
  | collectValues
  | scopeChain (maxLen : Nat)

/-- What a call returns. -/
inductive StoreReply (U : TypeUniverse)
  | done
  | depth (depth : Nat)
  | garbage (garbage : Option (ScopeGarbage U))
  | value (value : Option (ContextValue U))
  | values (values : ValueMap U)
  | names (names : List String)

/-- The stores `S` over a common memory `H`. -/
structure StoreImpl (U : TypeUniverse) (H S : Type) where
  new : S
  fromValuesWithChain : ValueMap U → List String → S
  call : StoreCall U → H → S → (H × S) × StoreReply U
  forkChild : H → S → H × S
  collectValues : H → S → ValueMap U
  extend : ValueMap U → S → S
  drop : H → S → H

/-- What a process does with its stores, each of which keeps its place wherever it is moved. -/
inductive StoreOp (U : TypeUniverse)
  | new
  | fromValuesWithChain (values : ValueMap U) (remoteChain : List String)
  | call (i : Nat) (c : StoreCall U)
  | fork (i : Nat)
  | mergeWith (i j : Nat)
  | drop (i : Nat)

namespace StoreImpl

variable {H S : Type}

/-- The store leaves its place and is dropped. -/
def dropAt (impl : StoreImpl U H S) (st : H × List (Option S)) (i : Nat) :
    H × List (Option S) :=
  match entry st.2 i with
  | none => st
  | some s => (impl.drop st.1 s, st.2.set i none)

def step (impl : StoreImpl U H S) (st : H × List (Option S)) :
    StoreOp U → (H × List (Option S)) × StoreReply U
  | .new => ((st.1, st.2 ++ [some impl.new]), .done)
  | .fromValuesWithChain values remoteChain =>
    ((st.1, st.2 ++ [some (impl.fromValuesWithChain values remoteChain)]), .done)
  | .call i c =>
    match entry st.2 i with
    | none => (st, .done)
    | some s =>
      let r := impl.call c st.1 s
      ((r.1.1, st.2.set i (some r.1.2)), r.2)
  | .fork i =>
    match entry st.2 i with
    -- `fork` without a store
    | none => ((st.1, st.2 ++ [some impl.new]), .done)
    | some s =>
      let r := impl.forkChild st.1 s
      ((r.1, st.2 ++ [some r.2]), .done)
  | .mergeWith i j =>
    match entry st.2 j with
    | none => (st, .done)
    | some source =>
      let values := impl.collectValues st.1 source
      -- `merge_with` owns the source, and drops it when it is done
      match entry (st.2.set j none) i with
      | none => (impl.dropAt st j, .done)
      | some s => (impl.dropAt (st.1, st.2.set i (some (impl.extend values s))) j, .done)
  | .drop i => (impl.dropAt st i, .done)

end StoreImpl

/-- Stores in memory. -/
def arcImpl (registry : Registry U) : StoreImpl U (ScopeHeap U) (ArcStore U) where
  new := .new
  fromValuesWithChain := .fromValuesWithChain
  call
    | .pushScope name, h, s =>
      ((s.pushScope registry name h).1, .depth (s.pushScope registry name h).2)
    | .popScope e, h, s => ((s.popScope e h).1, .garbage (s.popScope e h).2)
    | .setValue key value, h, s => ((h, s.setValue key value), .done)
    -- `*store = ContextStore::new()`
    | .clear, h, s => ((s.drop h, .new), .done)
    | .getValue key, h, s => ((h, s), .value ((s.deref h).getValue key))
    | .collectValues, h, s => ((h, s), .values (s.deref h).collectValues)
    | .scopeChain maxLen, h, s => ((h, s), .names ((s.deref h).scopeChain maxLen))
  forkChild h s := s.forkChild h
  collectValues h s := (s.deref h).collectValues
  extend := ArcStore.extend
  drop h s := s.drop h

/-- Stores that share nothing: there is no memory to speak of. -/
def plainImpl (registry : Registry U) (shared : List (ScopeNode U) → Bool) :
    StoreImpl U Unit (ContextStore U) where
  new := .new
  fromValuesWithChain := .fromValuesWithChain
  call
    | .pushScope name, _, s =>
      (((), (s.pushScope registry name).1), .depth (s.pushScope registry name).2)
    | .popScope e, _, s => (((), (s.popScope shared e).1), .garbage (s.popScope shared e).2)
    | .setValue key value, _, s => (((), s.setValue key value), .done)
    | .clear, _, _ => (((), .new), .done)
    | .getValue key, _, s => (((), s), .value (s.getValue key))
    | .collectValues, _, s => (((), s), .values s.collectValues)
    | .scopeChain maxLen, _, s => (((), s), .names (s.scopeChain maxLen))
  forkChild _ s := ((), s.forkChild)
  collectValues _ s := s.collectValues
  extend values s := s.overwrite values
  drop _ _ := ()

/-! ## What a store in memory stands for -/

/-- The nodes that the two references of a store lead to. -/
structure Linked (h : ScopeHeap U) (s : ArcStore U) (cs fs : List (Addr × ScopeNode U)) :
    Prop where
  chain : Chain h s.scopeChain cs
  frozen : Chain h s.frozenParent fs

/-- The references of `s` lead to the nodes of `p`, whose frozen parent is no longer than a chain
with its active scope. -/
structure Stands (h : ScopeHeap U) (s : ArcStore U) (p : ContextStore U) : Prop where
  linked : ∃ cs fs, Linked h s cs fs ∧ p = s.view (cs.map Prod.snd) (fs.map Prod.snd)
  wf : p.WellFormed
  frozen_le : p.frozenParent.length ≤ maxScopeDepth + 1

theorem chain_live {h : ScopeHeap U} {r : Option Addr} {ps : List (Addr × ScopeNode U)}
    (hc : Chain h r ps) : ∀ a, r = some a → ∃ n, h.node a = some n := by
  rintro a rfl
  cases hc with
  | cons hn _ => exact ⟨_, hn⟩

/-- What a store holds stays where it is. -/
theorem Linked.evolve {R : Multiset Addr} {h h' : ScopeHeap U} {s : ArcStore U}
    {cs fs : List (Addr × ScopeNode U)} (hl : Linked h s cs fs) (hs : Sound R h')
    (hev : Evolves h h') (hle : s.refs ≤ R) : Linked h' s cs fs := by
  have hchain : ∀ a, s.scopeChain = some a → ∃ n, h'.node a = some n := by
    intro a ha
    apply hs.node_of_root
    apply Multiset.mem_of_le hle
    simp [ArcStore.refs, ha]
  have hfrozen : ∀ a, s.frozenParent = some a → ∃ n, h'.node a = some n := by
    intro a ha
    apply hs.node_of_root
    apply Multiset.mem_of_le hle
    simp [ArcStore.refs, ha]
  exact ⟨hs.chain_of_evolves hev hl.chain hchain, hs.chain_of_evolves hev hl.frozen hfrozen⟩

namespace Stands

variable {h : ScopeHeap U} {s : ArcStore U} {p : ContextStore U} {R : Multiset Addr}

theorem stable : Stable ArcStore.refs (Stands (U := U)) := by
  intro R h h' s p hs hev hle hstands
  obtain ⟨cs, fs, hl, hp⟩ := hstands.linked
  exact ⟨⟨cs, fs, hl.evolve hs hev hle, hp⟩, hstands.wf, hstands.frozen_le⟩

theorem deref_eq (hstands : Stands h s p) (hs : Sound R h) : s.deref h = p := by
  obtain ⟨cs, fs, hl, rfl⟩ := hstands.linked
  rw [ArcStore.deref, hs.walk_eq hl.chain, hs.walk_eq hl.frozen]

theorem new (h : ScopeHeap U) : Stands h .new .new :=
  ⟨⟨[], [], ⟨.nil, .nil⟩, rfl⟩, .new, Nat.zero_le _⟩

theorem fromValuesWithChain (h : ScopeHeap U) (values : ValueMap U) (remoteChain : List String) :
    Stands h (.fromValuesWithChain values remoteChain)
      (.fromValuesWithChain values remoteChain) :=
  ⟨⟨[], [], ⟨.nil, .nil⟩, rfl⟩, .fromValuesWithChain values remoteChain, Nat.zero_le _⟩

theorem setValue (hstands : Stands h s p) (key : Key) (value : ContextValue U) :
    Stands h (s.setValue key value) (p.setValue key value) := by
  obtain ⟨cs, fs, hl, rfl⟩ := hstands.linked
  exact ⟨⟨cs, fs, ⟨hl.chain, hl.frozen⟩, rfl⟩, hstands.wf.setValue key value, hstands.frozen_le⟩

theorem extend (hstands : Stands h s p) (values : ValueMap U) :
    Stands h (s.extend values) (p.overwrite values) := by
  obtain ⟨cs, fs, hl, rfl⟩ := hstands.linked
  exact ⟨⟨cs, fs, ⟨hl.chain, hl.frozen⟩, rfl⟩, hstands.wf.withValues _, hstands.frozen_le⟩

/-- **A push** moves the chain into a new node. -/
theorem pushScope (hstands : Stands h s p) (hs : Sound (s.refs + R) h) (registry : Registry U)
    (name : Option String) :
    Update h s.refs (s.pushScope registry name h).1.1 (s.pushScope registry name h).1.2.refs ∧
      Stands (s.pushScope registry name h).1.1 (s.pushScope registry name h).1.2
        (p.pushScope registry name).1 ∧
      (s.pushScope registry name h).2 = (p.pushScope registry name).2 := by
  have hwf := hstands.wf.pushScope registry name
  have hfrozen : (p.pushScope registry name).1.frozenParent = p.frozenParent := by
    unfold ContextStore.pushScope
    dsimp only
    split_ifs <;> rfl
  have hderef := hstands.deref_eq hs
  obtain ⟨cs, fs, hl, hp⟩ := hstands.linked
  have hdepth : s.depth = p.depth := by rw [hp]; rfl
  have hle : (p.pushScope registry name).1.frozenParent.length ≤ maxScopeDepth + 1 := by
    rw [hfrozen]
    exact hstands.frozen_le
  unfold ArcStore.pushScope
  dsimp only
  rw [ContextStore.pushScope_snd, ← hdepth]
  split_ifs with hdead
  · rw [ContextStore.pushScope_of_lt registry name (by omega)] at hwf hle ⊢
    refine ⟨⟨.refl h, fun _ hs => hs⟩, ⟨⟨cs, fs, ⟨hl.chain, hl.frozen⟩, ?_⟩, hwf, hle⟩, rfl⟩
    rw [hp]
    rfl
  · rw [ContextStore.pushScope_of_le registry name (by omega)] at hwf hle ⊢
    have hupdate : Update h s.refs (h.alloc (s.freeze s.depth) s.scopeChain).1
        ({(h.alloc (s.freeze s.depth) s.scopeChain).2} + refsOf s.frozenParent) :=
      (Update.alloc h (s.freeze s.depth) s.scopeChain).frame (refsOf s.frozenParent)
    have hs' := hupdate.sound R hs
    have hchain := hs'.chain_cons hupdate.evolves hl.chain (node_alloc h _ _) rfl
    have hkept : Chain (h.alloc (s.freeze s.depth) s.scopeChain).1 s.frozenParent fs := by
      refine hs'.chain_of_evolves hupdate.evolves hl.frozen ?_
      intro a ha
      apply hs'.node_of_root
      simp [ha]
    refine ⟨hupdate, ⟨⟨_, fs, ⟨hchain, hkept⟩, ?_⟩, hwf, hle⟩, rfl⟩
    rw [hderef, Map.extend, Finmap.union_empty, hp]
    rfl

/-- **A fork** shares the chain with the frozen parent of the child. -/
theorem forkChild (hstands : Stands h s p) (hs : Sound (s.refs + R) h) :
    Update h 0 (s.forkChild h).1 (s.forkChild h).2.refs ∧
      Stands (s.forkChild h).1 (s.forkChild h).2 p.forkChild := by
  obtain ⟨cs, fs, hl, hp⟩ := hstands.linked
  have hupdate : Update h 0 (s.forkChild h).1 (s.forkChild h).2.refs := by
    have hretain : Update h 0 (h.retain s.scopeChain) (refsOf s.scopeChain) :=
      .retain (chain_live hl.chain)
    have hrefs : (s.forkChild h).2.refs =
        {((h.retain s.scopeChain).alloc (s.freeze s.depth) s.scopeChain).2} := by
      simp [ArcStore.forkChild, ArcStore.refs]
    rw [hrefs]
    exact hretain.trans (.alloc _ _ _)
  have hs' := hupdate.sound (s.refs + R) (by rwa [zero_add])
  have hchain := hs'.chain_cons hupdate.evolves hl.chain
    (node_alloc (h.retain s.scopeChain) (s.freeze s.depth) s.scopeChain) rfl
  have hlength := hstands.wf.length_ownFrames
  refine ⟨hupdate, ⟨⟨[], _, ⟨.nil, hchain⟩, ?_⟩, hstands.wf.forkChild, ?_⟩⟩
  · rw [hp]
    rfl
  · have hframes : p.forkChild.frozenParent.length = p.ownFrames.length := by
      simp [ContextStore.forkChild, ContextStore.ownFrames]
    omega

/-- **A drop** gives up both references. -/
theorem drop (h : ScopeHeap U) (s : ArcStore U) : Update h s.refs (s.drop h) 0 := by
  have hchain : Update h s.refs (h.release s.scopeChain) (0 + refsOf s.frozenParent) :=
    (Update.release h s.scopeChain).frame (refsOf s.frozenParent)
  rw [zero_add] at hchain
  exact hchain.trans (.release _ _)

end Stands

/-! ## Popping -/

/-- The store that goes on after a node is restored, whichever way `Arc::try_unwrap` goes. -/
theorem restoreShared_eq_owned (n : Node (ScopeNode U)) (s : ArcStore U) :
    s.restoreShared n = s.restoreOwned n := by
  rw [ArcStore.restoreShared, Map.collect_keys]
  rfl

namespace ArcStore

theorem popLoop_of_none {s : ArcStore U} (hsc : s.scopeChain = none) (e fuel : Nat)
    (h : ScopeHeap U) (old : Option (ValueMap U)) :
    s.popLoop e (fuel + 1) h old =
      ((h, { s with depth := ContextStore.popDead e s.depth }), old) := by
  cases s
  subst hsc
  simp only [popLoop, ite_self]

theorem popLoop_of_node {h : ScopeHeap U} {s : ArcStore U} {a : Addr} {n : Node (ScopeNode U)}
    (hsc : s.scopeChain = some a) (hn : h.node a = some n) (e fuel : Nat)
    (old : Option (ValueMap U)) :
    s.popLoop e (fuel + 1) h old =
      if ContextStore.popDead e s.depth ≥ e ∧ ContextStore.popDead e s.depth > 1 then
        (if n.count = 1 then s.restoreOwned n else s.restoreShared n).popLoop e fuel
          (if n.count = 1 then h.free a else (h.retain n.parent).release (some a))
          (some (ContextStore.addGarbage s.currentValues old))
      else ((h, { s with depth := ContextStore.popDead e s.depth }), old) := by
  cases s
  subst hsc
  simp only [popLoop, hn]
  split_ifs <;> rfl

end ArcStore

/-- A pop of `s` in the heap `h` has led to `r` in memory, and to `q` on lists. -/
structure PopsAs (h : ScopeHeap U) (s : ArcStore U) (fs : List (Addr × ScopeNode U))
    (r : (ScopeHeap U × ArcStore U) × Option (ValueMap U))
    (q : ContextStore U × Option (ValueMap U)) : Prop where
  update : Update h s.refs r.1.1 r.1.2.refs
  linked : ∃ cs, Linked r.1.1 r.1.2 cs fs ∧ q.1 = r.1.2.view (cs.map Prod.snd) (fs.map Prod.snd)
  old : r.2 = q.2

/-- Where the loop stops, only the depth has moved. -/
theorem PopsAs.stop {h : ScopeHeap U} {s : ArcStore U} {cs fs : List (Addr × ScopeNode U)}
    (hl : Linked h s cs fs) (depth : Nat) (old : Option (ValueMap U)) :
    PopsAs h s fs ((h, { s with depth := depth }), old)
      ({ s.view (cs.map Prod.snd) (fs.map Prod.snd) with depth := depth }, old) :=
  ⟨.refl h s.refs, ⟨cs, ⟨hl.chain, hl.frozen⟩, rfl⟩, rfl⟩

/-- A node is moved out of its `Arc`. -/
theorem update_restoreOwned {h : ScopeHeap U} {s : ArcStore U} {a : Addr}
    {n : Node (ScopeNode U)} (hsc : s.scopeChain = some a) (hn : h.node a = some n)
    (hone : n.count = 1) : Update h s.refs (h.free a) (s.restoreOwned n).refs := by
  have hrefs : s.refs = {a} + refsOf s.frozenParent := by rw [ArcStore.refs, hsc, refsOf_some]
  rw [hrefs]
  exact (Update.free hn hone).frame (refsOf s.frozenParent)

/-- A node is cloned, and the reference to it dropped. -/
theorem update_restoreShared {h : ScopeHeap U} {s : ArcStore U} {a : Addr}
    {n : Node (ScopeNode U)} (hsc : s.scopeChain = some a)
    (hparent : ∀ p, n.parent = some p → ∃ m, h.node p = some m) :
    Update h s.refs ((h.retain n.parent).release (some a)) (s.restoreOwned n).refs := by
  have hrefs : s.refs = {a} + refsOf s.frozenParent := by rw [ArcStore.refs, hsc, refsOf_some]
  have hretain := (Update.retain hparent).frame s.refs
  have hrelease := (Update.release (h.retain n.parent) (some a)).frame
    (refsOf n.parent + refsOf s.frozenParent)
  rw [zero_add, hrefs, add_left_comm] at hretain
  rw [zero_add, refsOf_some] at hrelease
  rw [hrefs]
  exact hretain.trans hrelease

/-- The loop of `pop_scope` in memory and on lists. The induction is on the chain: a node that is
restored gives up the reference to itself for the one it holds. -/
theorem popLoop_refines (shared : List (ScopeNode U) → Bool) (e : Nat)
    (cs fs : List (Addr × ScopeNode U)) :
    ∀ (fuel : Nat) (h : ScopeHeap U) (s : ArcStore U) (old : Option (ValueMap U))
      (R : Multiset Addr), cs.length < fuel → Sound (s.refs + R) h → Linked h s cs fs →
      PopsAs h s fs (s.popLoop e fuel h old)
        (ContextStore.popLoop shared e (cs.map Prod.snd)
          (s.view (cs.map Prod.snd) (fs.map Prod.snd)) old) := by
  induction cs with
  | nil =>
    intro fuel h s old R hfuel _ hl
    obtain ⟨fuel, rfl⟩ := Nat.exists_eq_succ_of_ne_zero (Nat.ne_of_gt hfuel)
    have hnone : s.scopeChain = none := by
      have hchain := hl.chain
      cases hsc : s.scopeChain with
      | none => rfl
      | some a =>
        rw [hsc] at hchain
        cases hchain
    rw [ArcStore.popLoop_of_none hnone]
    exact .stop hl _ old
  | cons c cs ih =>
    intro fuel h s old R hfuel hs hl
    obtain ⟨fuel, rfl⟩ := Nat.exists_eq_succ_of_ne_zero (Nat.ne_of_gt (Nat.zero_lt_of_lt hfuel))
    obtain ⟨a, v⟩ := c
    have hhead : ∃ n, s.scopeChain = some a ∧ h.node a = some n ∧ n.val = v ∧
        Chain h n.parent cs := by
      have hchain := hl.chain
      cases hsc : s.scopeChain with
      | none =>
        rw [hsc] at hchain
        cases hchain
      | some b =>
        rw [hsc] at hchain
        cases hchain with
        | cons hn hrest => exact ⟨_, rfl, hn, rfl, hrest⟩
    obtain ⟨n, hsc, hn, rfl, hrest⟩ := hhead
    -- what is left to do after the node, from any heap that the node's owner can reach
    have hnext : ∀ h', Update h s.refs h' (s.restoreOwned n).refs → ∀ old',
        PopsAs h s fs ((s.restoreOwned n).popLoop e fuel h' old')
          (ContextStore.popLoop shared e (cs.map Prod.snd)
            ((s.restoreOwned n).view (cs.map Prod.snd) (fs.map Prod.snd)) old') := by
      intro h' hu old'
      have hs' := hu.sound R hs
      have hl' : Linked h (s.restoreOwned n) cs fs := ⟨hrest, hl.frozen⟩
      have hpops := ih fuel h' (s.restoreOwned n) old' R (Nat.lt_of_succ_lt_succ hfuel) hs'
        (hl'.evolve hs' hu.evolves (Multiset.le_add_right _ _))
      exact ⟨hu.trans hpops.update, hpops.linked, hpops.old⟩
    rw [ArcStore.popLoop_of_node hsc hn, restoreShared_eq_owned, ite_self, List.map_cons,
      ContextStore.popLoop, ContextStore.restoreShared_eq, ite_self]
    have hdepth : (s.view (n.val :: cs.map Prod.snd) (fs.map Prod.snd)).depth = s.depth := rfl
    rw [hdepth]
    split_ifs with hgo hone
    · exact hnext _ (update_restoreOwned hsc hn hone) _
    · exact hnext _ (update_restoreShared hsc (chain_live hrest)) _
    · exact .stop hl _ old

/-- **A pop** in memory is a pop on lists. -/
theorem Stands.popScope {h : ScopeHeap U} {s : ArcStore U} {p : ContextStore U}
    {R : Multiset Addr} (hstands : Stands h s p) (hs : Sound (s.refs + R) h)
    (shared : List (ScopeNode U) → Bool) (e : Nat) :
    Update h s.refs (s.popScope e h).1.1 (s.popScope e h).1.2.refs ∧
      Stands (s.popScope e h).1.1 (s.popScope e h).1.2 (p.popScope shared e).1 ∧
      (s.popScope e h).2 = (p.popScope shared e).2 := by
  have hwf := hstands.wf.popScope shared e
  have hfrozen : (p.popScope shared e).1.frozenParent.length ≤ maxScopeDepth + 1 := by
    have hframes := congrArg List.length (hstands.wf.inheritedFrames_popScope shared e)
    simp only [ContextStore.inheritedFrames, List.length_map] at hframes
    rw [hframes]
    exact hstands.frozen_le
  obtain ⟨cs, fs, hl, hp⟩ := hstands.linked
  have hdepth : p.depth = s.depth := by
    rw [hp]
    rfl
  unfold ArcStore.popScope ContextStore.popScope at *
  rw [hdepth] at hwf hfrozen ⊢
  split_ifs at hwf hfrozen ⊢ with hstale
  · exact ⟨.refl h s.refs, hstands, rfl⟩
  · have hlength : cs.length < h.length + 1 :=
      Nat.lt_succ_of_le (hs.length_le_of_chain hl.chain _ fun a ha => by
        obtain ⟨n, hn⟩ := chain_live hl.chain a ha
        exact lt_of_node hn)
    have hpops := popLoop_refines shared e cs fs (h.length + 1) h s none R hlength hs hl
    have hchain : p.chain = cs.map Prod.snd := by
      rw [hp]
      rfl
    rw [hchain] at hwf hfrozen ⊢
    rw [hp] at hwf hfrozen ⊢
    obtain ⟨cs', hl', hview⟩ := hpops.linked
    exact ⟨hpops.update, ⟨⟨cs', fs, hl', hview⟩, hwf, hfrozen⟩,
      congrArg (Option.map ScopeGarbage.mk) hpops.old⟩

/-! ## Every store of a process -/

/-- The stores in memory and those that share nothing, side by side. -/
abbrev Refines (st : ScopeHeap U × List (Option (ArcStore U)))
    (pl : Unit × List (Option (ContextStore U))) : Prop :=
  Represents ArcStore.refs Stands st.1 st.2 pl.2

namespace Refines

variable {st : ScopeHeap U × List (Option (ArcStore U))}
  {pl : Unit × List (Option (ContextStore U))}

theorem sound_at (hr : Refines st pl) {i : Nat} {s : ArcStore U} (hs : entry st.2 i = some s) :
    Sound (s.refs + rootsOf ArcStore.refs (st.2.set i none)) st.1 := by
  have hsound := hr.sound
  rw [rootsOf_eq (lt_of_entry hs), hs] at hsound
  exact hsound

/-- A store is replaced by what one of its operations makes of it. -/
theorem replace (hr : Refines st pl) {i : Nat} {s s' : ArcStore U} {p' : ContextStore U}
    {h' : ScopeHeap U} (hs : entry st.2 i = some s) (hu : Update st.1 s.refs h' s'.refs)
    (hstands : Stands h' s' p') :
    Refines (h', st.2.set i (some s')) ((), pl.2.set i (some p')) := by
  refine Represents.set Stands.stable hr (lt_of_entry hs) ?_ (.some hstands)
  rw [hs]
  exact hu

theorem dropAt (hr : Refines st pl) (registry : Registry U)
    (shared : List (ScopeNode U) → Bool) (i : Nat) :
    Refines ((arcImpl registry).dropAt st i) ((plainImpl registry shared).dropAt pl i) := by
  unfold StoreImpl.dropAt
  cases hs : entry st.2 i with
  | none =>
    rw [hr.entry_eq_none hs]
    exact hr
  | some s =>
    obtain ⟨p, hp, -⟩ := hr.reads_of_entry hs
    rw [hp]
    refine Represents.set Stands.stable hr (lt_of_entry hs) ?_ .none
    rw [hs]
    exact Stands.drop st.1 s

theorem call (hr : Refines st pl) (registry : Registry U) (shared : List (ScopeNode U) → Bool)
    {i : Nat} {s : ArcStore U} {p : ContextStore U} (hs : entry st.2 i = some s)
    (hstands : Stands st.1 s p) (c : StoreCall U) :
    Update st.1 s.refs ((arcImpl registry).call c st.1 s).1.1
        ((arcImpl registry).call c st.1 s).1.2.refs ∧
      Stands ((arcImpl registry).call c st.1 s).1.1 ((arcImpl registry).call c st.1 s).1.2
        ((plainImpl registry shared).call c () p).1.2 ∧
      ((arcImpl registry).call c st.1 s).2 = ((plainImpl registry shared).call c () p).2 := by
  have hsound := hr.sound_at hs
  have hderef := hstands.deref_eq hsound
  cases c with
  | pushScope name =>
    obtain ⟨hu, hstands', hreply⟩ := hstands.pushScope hsound registry name
    exact ⟨hu, hstands', congrArg StoreReply.depth hreply⟩
  | popScope e =>
    obtain ⟨hu, hstands', hreply⟩ := hstands.popScope hsound shared e
    exact ⟨hu, hstands', congrArg StoreReply.garbage hreply⟩
  | setValue key value => exact ⟨.refl _ _, hstands.setValue key value, rfl⟩
  | clear => exact ⟨Stands.drop st.1 s, .new _, rfl⟩
  | getValue key =>
    refine ⟨.refl _ _, hstands, ?_⟩
    exact congrArg (fun t : ContextStore U => StoreReply.value (t.getValue key)) hderef
  | collectValues =>
    refine ⟨.refl _ _, hstands, ?_⟩
    exact congrArg (fun t : ContextStore U => StoreReply.values t.collectValues) hderef
  | scopeChain maxLen =>
    refine ⟨.refl _ _, hstands, ?_⟩
    exact congrArg (fun t : ContextStore U => StoreReply.names (t.scopeChain maxLen)) hderef

/-- **One operation** on the stores of a process. -/
theorem step (registry : Registry U) (shared : List (ScopeNode U) → Bool) (hr : Refines st pl)
    (op : StoreOp U) :
    Refines ((arcImpl registry).step st op).1 ((plainImpl registry shared).step pl op).1 ∧
      ((arcImpl registry).step st op).2 = ((plainImpl registry shared).step pl op).2 := by
  have happend : ∀ {s : ArcStore U} {p : ContextStore U}, s.refs = 0 → Stands st.1 s p →
      Refines (st.1, st.2 ++ [some s]) (pl.1, pl.2 ++ [some p]) := by
    intro s p hrefs hstands
    refine Represents.append Stands.stable hr ?_ (.some hstands)
    rw [slotRefs, Option.elim_some, hrefs]
    exact .refl _ _
  cases op with
  | new => exact ⟨happend rfl (.new _), rfl⟩
  | fromValuesWithChain values remoteChain =>
    exact ⟨happend rfl (.fromValuesWithChain _ values remoteChain), rfl⟩
  | call i c =>
    cases hs : entry st.2 i with
    | none =>
      simp only [StoreImpl.step, hs, hr.entry_eq_none hs]
      exact ⟨hr, trivial⟩
    | some s =>
      obtain ⟨p, hp, hstands⟩ := hr.reads_of_entry hs
      obtain ⟨hu, hstands', hreply⟩ := hr.call registry shared hs hstands c
      simp only [StoreImpl.step, hs, hp]
      exact ⟨hr.replace hs hu hstands', hreply⟩
  | fork i =>
    cases hs : entry st.2 i with
    | none =>
      simp only [StoreImpl.step, hs, hr.entry_eq_none hs]
      exact ⟨happend rfl (.new _), trivial⟩
    | some s =>
      obtain ⟨p, hp, hstands⟩ := hr.reads_of_entry hs
      obtain ⟨hu, hstands'⟩ := hstands.forkChild (hr.sound_at hs)
      simp only [StoreImpl.step, hs, hp]
      exact ⟨Represents.append Stands.stable hr hu (.some hstands'), trivial⟩
  | mergeWith i j =>
    cases hj : entry st.2 j with
    | none =>
      simp only [StoreImpl.step, hj, hr.entry_eq_none hj]
      exact ⟨hr, trivial⟩
    | some source =>
      obtain ⟨q, hq, hsource⟩ := hr.reads_of_entry hj
      have hvalues : (arcImpl registry).collectValues st.1 source = q.collectValues := by
        show (source.deref st.1).collectValues = q.collectValues
        rw [hsource.deref_eq (hr.sound_at hj)]
      have hvalues' : (plainImpl registry shared).collectValues pl.1 q = q.collectValues := rfl
      simp only [StoreImpl.step, hj, hq, hvalues, hvalues', entry_set (lt_of_entry hj),
        entry_set (lt_of_entry hq)]
      by_cases hij : j = i
      · simp only [hij, if_true]
        exact ⟨hr.dropAt registry shared i, trivial⟩
      · simp only [if_neg hij]
        cases hs : entry st.2 i with
        | none =>
          simp only [hr.entry_eq_none hs]
          exact ⟨hr.dropAt registry shared j, trivial⟩
        | some s =>
          obtain ⟨p, hp, hstands⟩ := hr.reads_of_entry hs
          simp only [hp]
          have hwritten : Refines (st.1, st.2.set i (some (s.extend q.collectValues)))
              ((), pl.2.set i (some (p.overwrite q.collectValues))) :=
            hr.replace hs (.refl _ _) (hstands.extend q.collectValues)
          exact ⟨hwritten.dropAt registry shared j, trivial⟩
  | drop i => exact ⟨hr.dropAt registry shared i, rfl⟩

/-- Every run from no store at all. -/
theorem run (registry : Registry U) (shared : List (ScopeNode U) → Bool)
    (ops : List (StoreOp U)) :
    Refines (StepSystem.run (arcImpl registry).step ([], []) ops).1
        (StepSystem.run (plainImpl registry shared).step ((), []) ops).1 ∧
      (StepSystem.run (arcImpl registry).step ([], []) ops).2 =
        (StepSystem.run (plainImpl registry shared).step ((), []) ops).2 := by
  have hstep : ∀ (st : ScopeHeap U × List (Option (ArcStore U)))
      (pl : Unit × List (Option (ContextStore U))) (op : StoreOp U), Refines st pl →
      Refines ((arcImpl registry).step st op).1 ((plainImpl registry shared).step pl (id op)).1 ∧
        ((arcImpl registry).step st op).2 = ((plainImpl registry shared).step pl (id op)).2 :=
    fun st pl op hr => hr.step registry shared op
  have hsim := run_simulates hstep ops ([], []) ((), []) .empty
  rwa [List.map_id] at hsim

end Refines

/-- **Sharing is not seen**: along every run the stores in memory answer as stores that share
nothing, and stand for them. -/
theorem arc_run_refines (registry : Registry U) (shared : List (ScopeNode U) → Bool)
    (ops : List (StoreOp U)) :
    let st := run (arcImpl registry).step ([], []) ops
    let pl := run (plainImpl registry shared).step ((), []) ops
    st.2 = pl.2 ∧ st.1.2.map (Option.map (ArcStore.deref st.1.1)) = pl.1.2 := by
  obtain ⟨hr, hreplies⟩ := Refines.run registry shared ops
  refine ⟨hreplies, Represents.map_eq hr ?_⟩
  intro s p hstands
  exact hstands.deref_eq hr.sound

/-- **Nodes are freed in time**: after every run a node is live exactly when the chain or the
frozen parent of some store leads to it, and its count is the number of the references to it. -/
theorem arc_run_live_iff (registry : Registry U) (ops : List (StoreOp U)) (a : Addr) :
    let st := (run (arcImpl registry).step ([], []) ops).1
    ((∃ n, st.1.node a = some n) ↔ ∃ i s, entry st.2 i = some s ∧
        (a ∈ (st.1.walk s.scopeChain).map Prod.fst ∨
          a ∈ (st.1.walk s.frozenParent).map Prod.fst)) ∧
      countOf (st.1.node a) = (rootsOf ArcStore.refs st.2).count a + st.1.linksTo a := by
  obtain ⟨hr, -⟩ := Refines.run registry (fun _ => true) ops
  refine ⟨(hr.sound.live_iff a).trans ?_, hr.sound.exact a⟩
  constructor
  · rintro ⟨r, hroot, hwalk⟩
    obtain ⟨i, s, hs, hmem⟩ := mem_rootsOf.mp hroot
    refine ⟨i, s, hs, ?_⟩
    rcases Multiset.mem_add.mp hmem with hmem | hmem
    · exact .inl ((Heap.mem_walk_iff _ _ a).mpr ⟨r, hmem, hwalk⟩)
    · exact .inr ((Heap.mem_walk_iff _ _ a).mpr ⟨r, hmem, hwalk⟩)
  · rintro ⟨i, s, hs, hwalk | hwalk⟩
    · obtain ⟨r, hmem, hwalk⟩ := (Heap.mem_walk_iff _ _ a).mp hwalk
      exact ⟨r, mem_rootsOf.mpr ⟨i, s, hs, Multiset.mem_add.mpr (.inl hmem)⟩, hwalk⟩
    · obtain ⟨r, hmem, hwalk⟩ := (Heap.mem_walk_iff _ _ a).mp hwalk
      exact ⟨r, mem_rootsOf.mpr ⟨i, s, hs, Multiset.mem_add.mpr (.inr hmem)⟩, hwalk⟩

/-- **Memory is bounded**: after every run there are at most as many live nodes as the limit on
scopes allows the stores there are. With the last store the last node goes. -/
theorem arc_run_live_le (registry : Registry U) (ops : List (StoreOp U)) :
    let st := (run (arcImpl registry).step ([], []) ops).1
    st.1.live.length ≤ (2 * maxScopeDepth + 1) * st.2.countP Option.isSome := by
  obtain ⟨hr, -⟩ := Refines.run registry (fun _ => true) ops
  refine Represents.length_live_le hr ?_
  intro s p hstands
  have hderef := hstands.deref_eq hr.sound
  have hlength := hstands.wf.length_ownFrames
  have hchain := congrArg (fun t : ContextStore U => t.chain.length) hderef
  have hfrozen := congrArg (fun t : ContextStore U => t.frozenParent.length) hderef
  have hle := hstands.frozen_le
  simp only [ArcStore.deref, ArcStore.view, List.length_map] at hchain hfrozen
  simp only [ContextStore.ownFrames, List.length_cons, List.length_map] at hlength
  rw [ArcStore.refs, Multiset.map_add, Multiset.sum_add, Heap.sum_walk_refsOf,
    Heap.sum_walk_refsOf]
  omega

end DContext
