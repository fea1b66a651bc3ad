import DContext.Store.CachedKeys
import DContext.Wire.Network

/-!
# The stores of a network

Threads come by stores in many ways: they push and pop scopes, attach what they hold and put back
what they had, fork, convert snapshots, and are handed stores by others. All of it goes through a
few operations. So what these operations keep holds of every store that is anywhere, in every run.

## Main definitions

* `Kept registry forks I`: the operations under a registry keep the condition `I`
* `StoresMeet I p`: every store of a thread meets the condition

## Main results

* `Process.step_storesMeet`: one step of one thread
* `network_reachable`: every store is reachable, and has no more scopes than the limit allows
* `network_cached_in_front`: where nothing is forked, cached keys are in front everywhere
-/

namespace DContext

open Overlay StepSystem

variable {U : TypeUniverse} {ι π : Type}

/-- The operations on stores under one registry keep a condition; a fork need not keep it where
there are none. -/
structure Kept (registry : Registry U) (forks : Prop) (I : ContextStore U → Prop) : Prop where
  new : I .new
  fromValuesWithChain : ∀ values remoteChain, I (.fromValuesWithChain values remoteChain)
  pushScope : ∀ s name, I s → I (s.pushScope registry name).1
  popScope : ∀ s shared e, I s → I (s.popScope shared e).1
  setValue : ∀ s key value, I s → I (s.setValue key value)
  mergeWith : ∀ s source, I s → I (s.mergeWith source)
  forkChild : forks → ∀ s, I s → I s.forkChild

theorem kept_reachable (registry : Registry U) :
    Kept registry True (ContextStore.Reachable : ContextStore U → Prop) where
  new := .new
  fromValuesWithChain values remoteChain := .fromValuesWithChain values remoteChain
  pushScope _ name h := h.pushScope registry name
  popScope _ shared e h := h.popScope shared e
  setValue _ key value h := h.setValue key value
  mergeWith _ source h := h.mergeWith source
  forkChild _ _ h := h.forkChild

theorem kept_fronted (registry : Registry U) :
    Kept registry False (ContextStore.Fronted registry) where
  new := .new registry
  fromValuesWithChain values remoteChain := .fromValuesWithChain registry values remoteChain
  pushScope _ name h := h.pushScope name
  popScope _ shared e h := h.popScope shared e
  setValue _ key value h := h.overwrite (Finmap.singleton key value)
  mergeWith _ source h := h.overwrite source.collectValues
  forkChild h := h.elim

/-! ## One thread -/

/-- Every store of the thread meets the condition: in its cell, in its guards and in its hands. -/
structure StoresMeet (I : ContextStore U → Prop) (p : Process U) : Prop where
  cell : ∀ s ∈ p.cell, I s
  guards : ∀ guard ∈ p.guards, ∀ s ∈ guard.prev, I s
  stores : ∀ s ∈ p.stores, I s

namespace StoresMeet

variable {I : ContextStore U → Prop} {p : Process U}

/-- The store in the cell after one of its operations. -/
theorem withStore (h : StoresMeet I p) {R : Type} {f : ContextStore U → ContextStore U × R}
    (hf : ∀ s, I s → I (f s).1) : ∀ s ∈ (tryApply p.cell f).1, I s := by
  intro s hs
  cases hcell : p.cell with
  | none =>
    rw [hcell] at hs
    cases hs
  | some s₀ =>
    rw [hcell, tryApply_some] at hs
    obtain rfl := Option.some.inj hs
    exact hf s₀ (h.cell s₀ hcell)

/-- A store is put in the cell, and the guard keeps what was there. -/
theorem attach (h : StoresMeet I p) {s : ContextStore U} (hs : I s) :
    StoresMeet I { p with
      cell := (Thread.attachStore s p.cell).1
      guards := p.guards ++ [(Thread.attachStore s p.cell).2] } := by
  refine ⟨?_, ?_, h.stores⟩
  · intro s' hs'
    obtain rfl := Option.some.inj hs'
    exact hs
  · exact List.forall_mem_append.mpr ⟨h.guards, List.forall_mem_singleton.mpr h.cell⟩

/-- A new thread. -/
theorem start (h : I .new) : StoresMeet I (Process.start (some .new)) where
  cell s hs := Option.some.inj hs ▸ h
  guards _ hguard := by cases hguard
  stores _ hs := by cases hs

theorem addStore (h : StoresMeet I p) {s : ContextStore U} (hs : I s) :
    StoresMeet I { p with stores := p.stores ++ [s] } :=
  ⟨h.cell, h.guards, List.forall_mem_append.mpr ⟨h.stores, List.forall_mem_singleton.mpr hs⟩⟩

end StoresMeet

/-- **One step of one thread** keeps what the operations keep, as long as it forks where it may. -/
theorem Process.step_storesMeet {g : Globals U} {forks : Prop} {I : ContextStore U → Prop}
    (hI : Kept g.registry forks I) {p : Process U} (h : StoresMeet I p) (op : ProcessOp U)
    (hfork : op = .fork → forks) : StoresMeet I (step g p op).1 := by
  cases op with
  | pushScope name =>
    exact ⟨h.withStore fun s hs => hI.pushScope s (some name) hs, h.guards, h.stores⟩
  | dropScopeGuard shared guard =>
    refine ⟨?_, h.guards, h.stores⟩
    show ∀ s ∈ guard.drop shared p.cell, I s
    unfold ScopeGuard.drop leaveScope
    split_ifs
    · exact h.cell
    · exact h.withStore fun s hs => hI.popScope s shared guard.expectedDepth hs
  | setContextVariable t key value =>
    exact ⟨h.withStore fun s hs => hI.setValue s key ⟨t, value⟩ hs, h.guards, h.stores⟩
  | updateContextVariable t key f =>
    exact ⟨h.withStore fun s hs => hI.setValue s key ⟨t, _⟩ hs, h.guards, h.stores⟩
  | mergeWith i =>
    simp only [step]
    split
    · next source hsource =>
      exact ⟨h.withStore fun s hs => hI.mergeWith s source hs, h.guards, h.stores⟩
    · exact h
  | clear => exact ⟨h.withStore fun _ _ => hI.new, h.guards, h.stores⟩
  | fork =>
    refine h.addStore ?_
    cases hcell : p.cell with
    | none => exact hI.new
    | some s => exact hI.forkChild (hfork rfl) s (h.cell s hcell)
  | attachStore i =>
    simp only [step]
    split
    · next s hs => exact h.attach (h.stores s (List.mem_of_getElem? hs))
    · exact h
  | attachSnapshot i =>
    simp only [step]
    split
    · next snap hsnap =>
      have hattached := h.attach (hI.fromValuesWithChain
        (snap.values.filter fun k v => g.registry.isValidValue k v && !g.registry.isLocalKey k)
        snap.scopeChain)
      exact ⟨hattached.cell, hattached.guards, hattached.stores⟩
    · exact h
  | dropAttachGuard i =>
    simp only [step]
    split
    · next guard hguard =>
      exact ⟨h.guards guard (List.mem_of_getElem? hguard), h.guards, h.stores⟩
    · exact h
  | capture => exact ⟨h.cell, h.guards, h.stores⟩
  | cloneSnapshot i =>
    simp only [step]
    split
    · exact ⟨h.cell, h.guards, h.stores⟩
    · exact h
  | convert i =>
    simp only [step]
    split
    · next snap hsnap =>
      have hadded := h.addStore (hI.fromValuesWithChain
        (snap.values.filter fun k v => g.registry.isValidValue k v && !g.registry.isLocalKey k)
        snap.scopeChain)
      exact ⟨hadded.cell, hadded.guards, hadded.stores⟩
    · exact h
  | serialize i iter =>
    simp only [step]
    split
    · split
      · exact ⟨h.cell, h.guards, h.stores⟩
      · exact h
    · exact h
  | deserialize bytes =>
    simp only [step]
    split
    · exact ⟨h.cell, h.guards, h.stores⟩
    · exact h

/-! ## All of them -/

section

variable [DecidableEq ι] [DecidableEq π] {g : π → Globals U} {home : ι → π}

/-- A thread forks. -/
def NetworkOp.IsFork : NetworkOp U ι → Prop
  | .act _ op => op.1 = .fork
  | _ => False

/-- **What happens in a network** keeps what the operations keep in each process. -/
theorem Network.step_storesMeet {forks : Prop} {I : π → ContextStore U → Prop}
    (hI : ∀ q, Kept (g q).registry forks (I q)) (net : Network U ι) (op : NetworkOp U ι)
    (h : ∀ t, StoresMeet (I (home t)) (net.thread t)) (hfork : op.IsFork → forks) :
    ∀ t, StoresMeet (I (home t)) ((Network.step g home net op).1.thread t) := by
  have hput : ∀ (t : ι) (p : Process U), StoresMeet (I (home t)) p →
      ∀ t', StoresMeet (I (home t')) ((net.put t p).thread t') := fun t p hp t' =>
    Network.forall_put (P := fun t => StoresMeet (I (home t))) h hp t'
  cases op with
  | act t op => exact hput t _ (Process.step_storesMeet (hI (home t)) (h t) op.1 hfork)
  | deliver t sender i =>
    simp only [Network.step]
    split
    · exact h
    · split_ifs
      · refine hput t _ (Process.step_storesMeet (hI (home t)) (h t) _ fun hop => ?_)
        cases hop
      · exact h
  | handStore t source i =>
    simp only [Network.step]
    split
    · exact h
    · next s hs =>
      split_ifs with hhome
      · refine hput t _ ((h t).addStore ?_)
        rw [hhome]
        exact (h source).stores s (List.mem_of_getElem? hs)
      · exact h
  | handSnapshot t source i =>
    simp only [Network.step]
    split
    · exact h
    · split_ifs
      · exact hput t _ ⟨(h t).cell, (h t).guards, (h t).stores⟩
      · exact h

theorem network_storesMeet {forks : Prop} {I : π → ContextStore U → Prop}
    (hI : ∀ q, Kept (g q).registry forks (I q)) (ops : List (NetworkOp U ι))
    (hforks : ∀ op ∈ ops, op.IsFork → forks) (t : ι) :
    StoresMeet (I (home t)) ((run (Network.step g home) .start ops).1.thread t) := by
  exact run_invariant_of_inputs (I := fun net : Network U ι => ∀ t, StoresMeet (I (home t))
    (net.thread t)) (fun net op hop h => Network.step_storesMeet hI net op h hop) ops hforks .start
    (fun t => StoresMeet.start (hI (home t)).new) t

/-- **Every store is reachable**, in every run of any number of threads and processes: in a cell, in
a guard or in the hands of a thread. So it has its shape, and never more own scopes than the limit
allows. -/
theorem network_reachable (g : π → Globals U) (home : ι → π) (ops : List (NetworkOp U ι)) (t : ι) :
    StoresMeet (fun s => s.Reachable ∧ s.WellFormed ∧
        s.ownFrames.length = min s.depth (maxScopeDepth + 1))
      ((run (Network.step g home) .start ops).1.thread t) := by
  have hreach : StoresMeet ContextStore.Reachable
      ((run (Network.step g home) .start ops).1.thread t) :=
    network_storesMeet (fun q => kept_reachable (g q).registry) ops (fun _ _ _ => trivial) t
  have hshape : ∀ s : ContextStore U, s.Reachable → s.Reachable ∧ s.WellFormed ∧
      s.ownFrames.length = min s.depth (maxScopeDepth + 1) := fun s h =>
    ⟨h, h.wellFormed, h.wellFormed.length_ownFrames⟩
  exact ⟨fun s hs => hshape s (hreach.cell s hs),
    fun guard hguard s hs => hshape s (hreach.guards guard hguard s hs),
    fun s hs => hshape s (hreach.stores s hs)⟩

/-- **Cached keys are in front everywhere**, in every run without forks: what a store shows under a
key that its process has registered as cached is in the active scope of the store, also after any
number of pushes, pops, attaches and handovers. -/
theorem network_cached_in_front (g : π → Globals U) (home : ι → π) (ops : List (NetworkOp U ι))
    (hforks : ∀ op ∈ ops, ¬ op.IsFork) (t : ι) :
    StoresMeet (ContextStore.CachedInFront (g (home t)).registry)
      ((run (Network.step g home) .start ops).1.thread t) := by
  have hfronted : StoresMeet (ContextStore.Fronted (g (home t)).registry)
      ((run (Network.step g home) .start ops).1.thread t) :=
    network_storesMeet (I := fun q => ContextStore.Fronted (g q).registry)
      (fun q => kept_fronted (g q).registry) ops hforks t
  exact ⟨fun s hs => (hfronted.cell s hs).cachedInFront,
    fun guard hguard s hs => (hfronted.guards guard hguard s hs).cachedInFront,
    fun s hs => (hfronted.stores s hs).cachedInFront⟩

/-- A thread that writes under a cached key and pushes a scope. -/
def cachingRun : List (NetworkOp primitiveTypes Unit) :=
  [.act () ⟨.setContextVariable .u64 "user" (7 : UInt64), rfl⟩, .act () ⟨.pushScope "inner", rfl⟩]

/-- The new scope holds the value. -/
theorem network_cached_in_front_user :
    ∃ s, ((run (Network.step (fun _ : Unit => .withRegistry ContextStore.cachedUser) fun _ => ())
        .start cachingRun).1.thread ()).cell = some s ∧ s.chain.length = 1 ∧
      s.currentValues.lookup "user" = some (u64Value 7) := by
  have hfront := network_cached_in_front
    (fun _ : Unit => .withRegistry ContextStore.cachedUser) (fun _ => ()) cachingRun
    (by simp [cachingRun, NetworkOp.IsFork]) ()
  exact ⟨_, rfl, rfl, hfront.cell _ rfl "user" _ rfl rfl _ rfl⟩

end

end DContext
