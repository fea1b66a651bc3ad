import DContext.Thread.Transparency
import DContext.Wire.Stores

/-!
# What no program decides

Two things in a run are not decided by what the threads do to their contexts: in which order a hash
map is iterated when a snapshot is serialized, and which way `Arc::try_unwrap` goes at a node when a
scope is left, as this depends on the stores that are still alive elsewhere. Two runs that differ in
these only are the same in all that any thread of any process holds or shows. The messages differ in
the order of their entries, which no receiver takes notice of.

## Main definitions

* `SameMessage g bytes bytes'`: one snapshot, serialized in two orders
* `NetworkOp.Variant op op'`: the same operation, with what is left open decided anew
* `SameButSent g p p'`: two threads that differ in the bytes they have sent at most

## Main results

* `SameMessage.deserialize_iff`: every receiver makes the same of both
* `Process.step_variant`: one step of one thread
* `network_variant`: whole runs
-/

namespace DContext

open Overlay StepSystem

variable {U : TypeUniverse} {ι π : Type}

/-! ## Messages -/

/-- The bytes are one snapshot, serialized in two orders. -/
def SameMessage (g : Globals U) (bytes bytes' : Bytes) : Prop :=
  ∃ (snap : ContextSnapshot U) (iter iter' : IterationOrder U),
    snap.serialize g iter = .ok bytes ∧ snap.serialize g iter' = .ok bytes'

/-- Whether a snapshot can be serialized is the same in every order. -/
theorem exists_serialize_order_iff (g : Globals U) (snap : ContextSnapshot U)
    (iter iter' : IterationOrder U) :
    (∃ bytes, snap.serialize g iter = .ok bytes) ↔ ∃ bytes, snap.serialize g iter' = .ok bytes := by
  unfold ContextSnapshot.serialize
  rw [exists_serializeFrom_iff _ _ _ _ (iter.enumerates snap.values),
    exists_serializeFrom_iff _ _ _ _ (iter'.enumerates snap.values)]

theorem length_of_serialize {g : Globals U} {snap : ContextSnapshot U} {iter : IterationOrder U}
    {bytes : Bytes} (h : snap.serialize g iter = .ok bytes) :
    bytes.length = encodedLength g.registry snap.values snap.scopeChain := by
  obtain ⟨entries, hentries, rfl, -⟩ := serializeFrom_eq_ok_iff.mp h
  exact length_write_serializeEntries (iter.enumerates snap.values) hentries snap.scopeChain

namespace SameMessage

variable {g g' : Globals U} {bytes bytes' : Bytes}

theorem length_eq (h : SameMessage g bytes bytes') : bytes.length = bytes'.length := by
  obtain ⟨snap, iter, iter', hbytes, hbytes'⟩ := h
  rw [length_of_serialize hbytes, length_of_serialize hbytes']

/-- **Every receiver** makes the same of both. -/
theorem deserialize_iff (h : SameMessage g bytes bytes') (hsafe : LocalSafe g'.registry.map)
    (hsize : bytes.length < 2 ^ 64) (result : ContextSnapshot U) :
    ContextSnapshot.deserialize g' bytes = .ok result ↔
      ContextSnapshot.deserialize g' bytes' = .ok result := by
  have hsize' : bytes'.length < 2 ^ 64 := h.length_eq ▸ hsize
  obtain ⟨snap, iter, iter', hbytes, hbytes'⟩ := h
  have hvec : snap.serialize g iter = .ok (⟨bytes, hsize⟩ : ByteVec).1 := hbytes
  have hvec' : snap.serialize g iter' = .ok (⟨bytes', hsize'⟩ : ByteVec).1 := hbytes'
  have hread := deserialize_serialize_iff hsafe hvec result
  have hread' := deserialize_serialize_iff hsafe hvec' result
  exact hread.trans hread'.symm

end SameMessage

/-! ## One thread -/

/-- The same operation, with what is left open decided anew. -/
inductive ProcessOp.Variant : ProcessOp U → ProcessOp U → Prop
  | refl (op : ProcessOp U) : Variant op op
  | dropScopeGuard (shared shared' : List (ScopeNode U) → Bool) (guard : ScopeGuard) :
      Variant (.dropScopeGuard shared guard) (.dropScopeGuard shared' guard)
  | serialize (i : Nat) (iter iter' : IterationOrder U) :
      Variant (.serialize i iter) (.serialize i iter')

/-- The threads differ in the bytes they have sent at most, and these in their order. -/
structure SameButSent (g : Globals U) (p p' : Process U) : Prop where
  cell : p.cell = p'.cell
  guards : p.guards = p'.guards
  stores : p.stores = p'.stores
  snaps : p.snaps = p'.snaps
  converted : p.converted = p'.converted
  sent : List.Forall₂ (SameMessage g) p.sent p'.sent

namespace SameButSent

variable {g : Globals U} {p p' : Process U}

theorem eq_withSent (h : SameButSent g p p') : p' = { p with sent := p'.sent } := by
  obtain ⟨cell, guards, stores, snaps, sent, converted⟩ := p
  obtain ⟨cell', guards', stores', snaps', sent', converted'⟩ := p'
  obtain ⟨rfl, rfl, rfl, rfl, rfl, -⟩ := h
  rfl

theorem of_withSent {sent : List Bytes} (h : List.Forall₂ (SameMessage g) p.sent sent) :
    SameButSent g p { p with sent := sent } := ⟨rfl, rfl, rfl, rfl, rfl, h⟩

theorem addStore (h : SameButSent g p p') (s : ContextStore U) :
    SameButSent g { p with stores := p.stores ++ [s] } { p' with stores := p'.stores ++ [s] } :=
  ⟨h.cell, h.guards, congrArg (· ++ [s]) h.stores, h.snaps, h.converted, h.sent⟩

theorem addSnap (h : SameButSent g p p') (snap : ContextSnapshot U) :
    SameButSent g { p with snaps := p.snaps ++ [snap] } { p' with snaps := p'.snaps ++ [snap] } :=
  ⟨h.cell, h.guards, h.stores, congrArg (· ++ [snap]) h.snaps, h.converted, h.sent⟩

end SameButSent

/-- What a thread has sent plays no part in what it does. -/
theorem Process.step_withSent (g : Globals U) (p : Process U) {op : ProcessOp U}
    (hop : ∀ i iter, op ≠ .serialize i iter) (sent : List Bytes) :
    (step g { p with sent := sent } op).1 = { (step g p op).1 with sent := sent } ∧
      (step g p op).1.sent = p.sent := by
  cases op with
  | serialize i iter => exact absurd rfl (hop i iter)
  | mergeWith i => cases hi : p.stores[i]? <;> simp [step, hi]
  | attachStore i => cases hi : p.stores[i]? <;> simp [step, hi]
  | attachSnapshot i => cases hi : p.snaps[i]? <;> simp [step, hi]
  | dropAttachGuard i => cases hi : p.guards[i]? <;> simp [step, hi]
  | cloneSnapshot i => cases hi : p.snaps[i]? <;> simp [step, hi]
  | convert i => cases hi : p.snaps[i]? <;> simp [step, hi]
  | deserialize bytes =>
    cases hread : ContextSnapshot.deserialize g bytes <;> simp [step, hread]
  | _ => exact ⟨rfl, rfl⟩

/-- A snapshot is serialized in two orders. -/
theorem Process.step_serialize {g : Globals U} {p p' : Process U} (h : SameButSent g p p') (i : Nat)
    (iter iter' : IterationOrder U) :
    SameButSent g (step g p (.serialize i iter)).1 (step g p' (.serialize i iter')).1 := by
  rw [h.eq_withSent]
  cases hi : p.snaps[i]? with
  | none =>
    simp only [step, hi]
    exact .of_withSent h.sent
  | some snap =>
    have hsame := exists_serialize_order_iff g snap iter iter'
    cases hbytes : snap.serialize g iter with
    | error e =>
      cases hbytes' : snap.serialize g iter' with
      | error e' =>
        simp only [step, hi, hbytes, hbytes']
        exact .of_withSent h.sent
      | ok bytes' => simp [hbytes, hbytes'] at hsame
    | ok bytes =>
      cases hbytes' : snap.serialize g iter' with
      | error e' => simp [hbytes, hbytes'] at hsame
      | ok bytes' =>
        simp only [step, hi, hbytes, hbytes']
        have hmessage : SameMessage g bytes bytes' := ⟨snap, iter, iter', hbytes, hbytes'⟩
        exact ⟨rfl, rfl, rfl, rfl, rfl, List.rel_append h.sent (.cons hmessage .nil)⟩

/-- **One step of one thread**, and its variants. -/
theorem Process.step_variant {g : Globals U} {p p' : Process U} (h : SameButSent g p p')
    (hwf : ∀ s ∈ p.cell, s.WellFormed) {op op' : ProcessOp U} (hop : op.Variant op') :
    SameButSent g (step g p op).1 (step g p' op').1 := by
  cases hop with
  | serialize i iter iter' => exact step_serialize h i iter iter'
  | dropScopeGuard shared shared' guard =>
    have hdrop : guard.drop shared p.cell = guard.drop shared' p.cell := by
      cases hcell : p.cell with
      | none => rw [Thread.scopeGuard_drop_none, Thread.scopeGuard_drop_none]
      | some s =>
        unfold ScopeGuard.drop leaveScope
        split_ifs
        · rfl
        · exact congrArg some (s.popScope_shared shared shared' (hwf s hcell) guard.expectedDepth)
    rw [h.eq_withSent]
    simp only [step]
    rw [← hdrop]
    exact ⟨rfl, rfl, rfl, rfl, rfl, h.sent⟩
  | refl =>
    by_cases hserialize : ∃ i iter, op = .serialize i iter
    · obtain ⟨i, iter, rfl⟩ := hserialize
      exact step_serialize h i iter iter
    · have hop : ∀ i iter, op ≠ .serialize i iter := fun i iter heq => hserialize ⟨i, iter, heq⟩
      obtain ⟨hstep, hkept⟩ := step_withSent g p hop p'.sent
      have hsent : List.Forall₂ (SameMessage g) (step g p op).1.sent p'.sent := by
        rw [hkept]
        exact h.sent
      rw [h.eq_withSent, hstep]
      exact .of_withSent hsent

/-- A thread reads one snapshot, serialized in two orders. -/
theorem Process.read_variant {g g' : Globals U} {p p' : Process U} (h : SameButSent g p p')
    (hsafe : LocalSafe g.registry.map) {bytes bytes' : Bytes}
    (hmessage : SameMessage g' bytes bytes') (hsize : bytes.length < 2 ^ 64) :
    SameButSent g (step g p (.deserialize bytes)).1 (step g p' (.deserialize bytes')).1 := by
  have hread := hmessage.deserialize_iff hsafe hsize
  rw [h.eq_withSent]
  cases hresult : ContextSnapshot.deserialize g bytes with
  | ok snap =>
    have hresult' := (hread snap).mp hresult
    simp only [step, hresult, hresult']
    exact ⟨rfl, rfl, rfl, rfl, rfl, h.sent⟩
  | error e =>
    -- the errors may differ, but neither leaves anything
    cases hresult' : ContextSnapshot.deserialize g bytes' with
    | ok snap =>
      have hok := (hread snap).mpr hresult'
      rw [hresult] at hok
      cases hok
    | error e' =>
      simp only [step, hresult, hresult']
      exact .of_withSent h.sent

theorem Process.writes_variant {p p' : Process U} (hcell : p.cell = p'.cell) {op op' : ProcessOp U}
    (hop : op.Variant op') : p.writes op = p'.writes op' := by
  cases hop with
  | refl => cases op <;> simp only [writes, hcell]
  | dropScopeGuard shared shared' guard => rfl
  | serialize i iter iter' => rfl

/-! ## All of them -/

/-- The same happens, with what is left open decided anew. -/
inductive NetworkOp.Variant : NetworkOp U ι → NetworkOp U ι → Prop
  | refl (op : NetworkOp U ι) : Variant op op
  | act (t : ι) {op op' : { op : ProcessOp U // op.isDeserialize = false }}
      (h : op.1.Variant op'.1) : Variant (.act t op) (.act t op')

section

variable [DecidableEq ι] [DecidableEq π] {g : π → Globals U} {home : ι → π}

/-- The networks differ in the order of messages at most, and their stores have their shape. -/
structure SameButOrder (g : π → Globals U) (home : ι → π) (net net' : Network U ι) : Prop where
  written : net.written = net'.written
  thread : ∀ t, SameButSent (g (home t)) (net.thread t) (net'.thread t)
  reachable : ∀ t, StoresMeet ContextStore.Reachable (net.thread t)

theorem Network.step_act_variant {net net' : Network U ι} (h : SameButOrder g home net net') (t : ι)
    {op op' : { op : ProcessOp U // op.isDeserialize = false }} (hop : op.1.Variant op'.1) :
    (Network.step g home net (.act t op)).1.written =
        (Network.step g home net' (.act t op')).1.written ∧
      ∀ t', SameButSent (g (home t')) ((Network.step g home net (.act t op)).1.thread t')
        ((Network.step g home net' (.act t op')).1.thread t') := by
  have hwf : ∀ s ∈ (net.thread t).cell, s.WellFormed := fun s hs =>
    ((h.reachable t).cell s hs).wellFormed
  refine ⟨?_, Network.put_related h.thread (Process.step_variant (h.thread t) hwf hop)⟩
  simp only [Network.step]
  rw [h.written, Process.writes_variant (h.thread t).cell hop]

/-- **One step of the network**, and its variants. -/
theorem Network.step_variant (hsafe : ∀ q, LocalSafe (g q).registry.map) {net net' : Network U ι}
    (h : SameButOrder g home net net') {op op' : NetworkOp U ι} (hop : op.Variant op') :
    SameButOrder g home (Network.step g home net op).1 (Network.step g home net' op').1 := by
  suffices hsame : (Network.step g home net op).1.written =
      (Network.step g home net' op').1.written ∧
      ∀ t, SameButSent (g (home t)) ((Network.step g home net op).1.thread t)
        ((Network.step g home net' op').1.thread t) by
    exact ⟨hsame.1, hsame.2, Network.step_storesMeet (I := fun _ => ContextStore.Reachable)
      (fun q => kept_reachable (g q).registry) net op h.reachable fun _ => trivial⟩
  cases hop with
  | act t hop => exact step_act_variant h t hop
  | refl =>
    cases op with
    | act t op => exact step_act_variant h t (.refl op.1)
    | deliver t sender i =>
      rcases Transparency.forall₂_getElem? (h.thread sender).sent i with
        ⟨hi, hi'⟩ | ⟨bytes, bytes', hi, hi', hmessage, -⟩
      · simp only [Network.step, hi, hi']
        exact ⟨h.written, h.thread⟩
      · simp only [Network.step, hi, hi', ← hmessage.length_eq]
        split_ifs with hsize
        · exact ⟨h.written, Network.put_related h.thread
            (Process.read_variant (h.thread t) (hsafe (home t)) hmessage hsize)⟩
        · exact ⟨h.written, h.thread⟩
    | handStore t source i =>
      simp only [Network.step, ← (h.thread source).stores]
      split
      · exact ⟨h.written, h.thread⟩
      · next s hs =>
        split_ifs
        · exact ⟨h.written, Network.put_related h.thread ((h.thread t).addStore s)⟩
        · exact ⟨h.written, h.thread⟩
    | handSnapshot t source i =>
      simp only [Network.step, ← (h.thread source).snaps]
      split
      · exact ⟨h.written, h.thread⟩
      · next snap hsnap =>
        split_ifs
        · exact ⟨h.written, Network.put_related h.thread ((h.thread t).addSnap snap)⟩
        · exact ⟨h.written, h.thread⟩

/-- **What no program decides is not seen.** In two runs of any number of threads and processes that
differ in the order in which maps are iterated and in the ways `Arc::try_unwrap` goes, every thread
holds the same stores, snapshots and guards, and what it has sent are the same snapshots, of which
every receiver makes the same. -/
theorem network_variant (calls : π → List (BuilderCall U))
    (maxContextSize maxScopeChainLen : π → Nat) (home : ι → π) {ops ops' : List (NetworkOp U ι)}
    (h : List.Forall₂ NetworkOp.Variant ops ops') :
    let g : π → Globals U := fun q =>
      ⟨⟨buildMap (calls q)⟩, maxContextSize q, maxScopeChainLen q⟩
    ∀ t, SameButSent (g (home t)) ((run (Network.step g home) Network.start ops).1.thread t)
      ((run (Network.step g home) Network.start ops').1.thread t) := by
  intro g
  have hsafe : ∀ q, LocalSafe (g q).registry.map := fun q => built_localSafe ⟨calls q, rfl⟩
  have hrun : ∀ net net' : Network U ι, SameButOrder g home net net' →
      SameButOrder g home (run (Network.step g home) net ops).1
        (run (Network.step g home) net' ops').1 := by
    induction h with
    | nil => exact fun net net' h => h
    | cons hop _ ih => exact fun net net' h => ih _ _ (Network.step_variant hsafe h hop)
  exact (hrun Network.start Network.start
    ⟨rfl, fun t => ⟨rfl, rfl, rfl, rfl, rfl, .nil⟩, fun t => .start .new⟩).thread

end

/-- The order the other way round. -/
def IterationOrder.reversed (iter : IterationOrder U) : IterationOrder U where
  list m := (iter.list m).reverse
  enumerates m := (Multiset.coe_reverse _).trans (iter.enumerates m)

/-- A registry with two numbers. -/
def twoNumberCalls : List (BuilderCall primitiveTypes) :=
  [.register PrimitiveType.u64 "k" [], .register PrimitiveType.u64 "m" []]

/-- A thread sets two numbers, leaves a scope and sends what it has captured to another one. -/
def sentAfterScope (shared : List (ScopeNode primitiveTypes) → Bool)
    (iter : IterationOrder primitiveTypes) : List (NetworkOp primitiveTypes Bool) :=
  [.act false ⟨.setContextVariable .u64 "k" (7 : UInt64), Eq.refl false⟩,
    .act false ⟨.setContextVariable .u64 "m" (8 : UInt64), Eq.refl false⟩,
    .act false ⟨.pushScope "inner", Eq.refl false⟩,
    .act false ⟨.dropScopeGuard shared ⟨2⟩, Eq.refl false⟩, .act false ⟨.capture, Eq.refl false⟩,
    .act false ⟨.serialize 0 iter, Eq.refl false⟩, .deliver true false 0]

theorem network_variant_sent :
    let g : Unit → Globals primitiveTypes := fun _ => ⟨⟨buildMap twoNumberCalls⟩, 0, 64⟩
    SameButSent (g ())
      ((run (Network.step g fun _ : Bool => ()) Network.start
        (sentAfterScope (fun _ => true) .arbitrary)).1.thread true)
      ((run (Network.step g fun _ : Bool => ()) Network.start
        (sentAfterScope (fun _ => false) (.reversed .arbitrary))).1.thread true) := by
  refine network_variant (fun _ : Unit => twoNumberCalls) (fun _ => 0) (fun _ => 64) (fun _ => ())
    ?_ true
  exact .cons (.refl _) (.cons (.refl _) (.cons (.refl _)
    (.cons (.act false (.dropScopeGuard _ _ _)) (.cons (.refl _)
      (.cons (.act false (.serialize 0 _ _)) (.cons (.refl _) .nil))))))

end DContext
