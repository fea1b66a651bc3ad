import DContext.Store.Caching
import DContext.System.Run
import DContext.Thread.Context

/-!
# Whether caching shows

One thread runs a program under two registries that differ in their cached keys. The program
holds the stores it has forked or converted, the snapshots it has captured or received, and the
guards of its attaches. Under either registry it does the same, and what it reads is compared.

## Main definitions

* `State U`, `Op U`, `Reply U`, `step`: one thread with what the program holds
* `Related`: two states that look alike in the cell and in all that is held
* `ForksHoldSameKeys`: the scopes of a forked store hold the same keys under both registries

## Main results

* `step_related`: one operation answers alike and keeps the states alike
* `replies_eq`: a run whose forks all hold the same keys answers alike
* `caching_transparent_iff`: such runs are exactly those that no read tells apart
* `replies_eq_of_forks_of_roots`: forks of stores that inherit nothing never tell
-/

namespace DContext

open Overlay StepSystem

variable {U : TypeUniverse}

namespace Transparency

/-- One thread: its cell, and the stores, snapshots and attach guards that the program holds. -/
structure State (U : TypeUniverse) where
  cell : Cell U
  stores : List (ContextStore U)
  snapshots : List (ContextSnapshot U)
  guards : List (AttachGuard U)

/-- What a program does; what it holds is named by its place. -/
inductive Op (U : TypeUniverse)
  | pushScope (name : String)
  /-- The drop of a scope guard of any depth. -/
  | dropScopeGuard (guard : ScopeGuard) (shared : List (ScopeNode U) → Bool)
  | setContextVariable (t : U.TypeId) (key : Key) (value : U.El t)
  | mergeWith (i : Nat)
  | clear
  | fork
  | attachStore (i : Nat)
  | capture
  /-- A snapshot from elsewhere comes into the program's hands. -/
  | receive (snap : ContextSnapshot U)
  | attachSnapshot (i : Nat)
  /-- `ContextStore::from(snapshot)`. -/
  | convert (i : Nat)
  | dropAttachGuard (i : Nat)
  | getValue (key : Key)
  | collectValues
  | scopeChain

/-- What an operation answers. -/
inductive Reply (U : TypeUniverse)
  | done
  | guard (guard : ScopeGuard)
  | value (v : Option (ContextValue U))
  | values (m : ValueMap U)
  | names (ns : List String)
  | snapshot (snap : ContextSnapshot U)

/-- The state after an attach that has left this cell and this guard. -/
def attached (r : Cell U × AttachGuard U) (st : State U) : State U :=
  { st with cell := r.1, guards := st.guards ++ [r.2] }

def step (g : Globals U) (st : State U) : Op U → State U × Reply U
  | .pushScope name =>
    let r := Thread.pushScope g name st.cell
    ({ st with cell := r.1 }, .guard r.2)
  | .dropScopeGuard guard shared => ({ st with cell := guard.drop shared st.cell }, .done)
  | .setContextVariable t key value =>
    ({ st with cell := Thread.setContextVariable t key value st.cell }, .done)
  -- stores are moved into `merge_with` and `attach_store`, snapshots are cloned
  | .mergeWith i =>
    match st.stores[i]? with
    | none => (st, .done)
    | some source =>
      ({ st with
          cell := Thread.mergeWith source st.cell
          stores := st.stores.eraseIdx i }, .done)
  | .clear => ({ st with cell := Thread.clear st.cell }, .done)
  | .fork => ({ st with stores := st.stores ++ [Thread.fork st.cell] }, .done)
  | .attachStore i =>
    match st.stores[i]? with
    | none => (st, .done)
    | some store =>
      (attached (Thread.attachStore store st.cell)
        { st with stores := st.stores.eraseIdx i }, .done)
  | .capture =>
    let snap := Thread.capture g st.cell
    ({ st with snapshots := st.snapshots ++ [snap] }, .snapshot snap)
  | .receive snap => ({ st with snapshots := st.snapshots ++ [snap] }, .done)
  | .attachSnapshot i =>
    match st.snapshots[i]? with
    | none => (st, .done)
    | some snap => (attached (Thread.attachSnapshot g snap st.cell) st, .done)
  | .convert i =>
    match st.snapshots[i]? with
    | none => (st, .done)
    | some snap =>
      ({ st with stores := st.stores ++ [storeFromSnapshotWithRegistry snap g.registry] }, .done)
  | .dropAttachGuard i =>
    match st.guards[i]? with
    | none => (st, .done)
    | some guard => ({ st with cell := guard.drop, guards := st.guards.eraseIdx i }, .done)
  | .getValue key =>
    (st, .value (tryApply st.cell fun store => (store, store.getValue key)).2.join)
  | .collectValues =>
    (st, .values ((tryApply st.cell fun store => (store, store.collectValues)).2.getD ∅))
  | .scopeChain => (st, .names (Thread.scopeChain g st.cell))

/-- A thread with the store `s₀`, holding nothing. -/
def start (s₀ : ContextStore U) : State U where
  cell := some s₀
  stores := []
  snapshots := []
  guards := []

/-- The replies of a program started on `s₀`. -/
def replies (g : Globals U) (s₀ : ContextStore U) (ops : List (Op U)) : List (Reply U) :=
  (run (step g) (start s₀) ops).2

/-- A forked store holds the same keys in its own scopes under both registries: none of them has a
copy of a key that the other finds only in the frozen parent. -/
def ForksHoldSameKeys (p : State U × State U) : Op U → Prop
  | .fork => ∀ s ∈ p.1.cell, ∀ s' ∈ p.2.cell, ∀ key, s.HoldsKey key ↔ s'.HoldsKey key
  | _ => True

/-! ## Two states that look alike -/

/-- Two cells that look alike. -/
abbrev SameCell (cell cell' : Cell U) : Prop := Option.Rel ContextStore.Alike cell cell'

/-- Two states that look alike. -/
structure Related (p : State U × State U) : Prop where
  cell : SameCell p.1.cell p.2.cell
  stores : List.Forall₂ ContextStore.Alike p.1.stores p.2.stores
  snapshots : p.1.snapshots = p.2.snapshots
  guards : List.Forall₂ (fun guard guard' => SameCell guard.prev guard'.prev) p.1.guards p.2.guards

/-- Of two lists related place by place, a place is empty in both or holds related entries; without
it they are still related. -/
theorem forall₂_getElem? {α β : Type} {R : α → β → Prop} {as : List α} {bs : List β}
    (h : List.Forall₂ R as bs) (i : Nat) :
    (as[i]? = none ∧ bs[i]? = none) ∨ ∃ a b, as[i]? = some a ∧ bs[i]? = some b ∧ R a b ∧
      List.Forall₂ R (as.eraseIdx i) (bs.eraseIdx i) := by
  induction h generalizing i with
  | nil => exact .inl ⟨rfl, rfl⟩
  | @cons a b as bs hab h ih =>
    cases i with
    | zero => exact .inr ⟨a, b, rfl, rfl, hab, h⟩
    | succ i =>
      rcases ih i with hnone | ⟨a', b', ha, hb, hr, hrest⟩
      · exact .inl hnone
      · exact .inr ⟨a', b', ha, hb, hr, .cons hab hrest⟩

theorem start_related {s₀ : ContextStore U} (h : s₀.WellFormed) :
    Related (start s₀, start s₀) := ⟨.some (.refl h), .nil, rfl, .nil⟩

/-- Access to the stores in two cells that look alike, by functions that keep such stores alike. -/
theorem tryApply_alike {R : Type} {cell cell' : Cell U} (h : SameCell cell cell')
    {f f' : ContextStore U → ContextStore U × R}
    (hf : ∀ s s', s.Alike s' → (f s).1.Alike (f' s').1) :
    SameCell (tryApply cell f).1 (tryApply cell' f').1 := by
  cases h with
  | none => exact .none
  | some h => exact .some (hf _ _ h)

theorem scopeGuard_drop_alike {cell cell' : Cell U} (h : SameCell cell cell') (guard : ScopeGuard)
    (shared : List (ScopeNode U) → Bool) :
    SameCell (guard.drop shared cell) (guard.drop shared cell') := by
  unfold ScopeGuard.drop leaveScope
  split_ifs
  · exact h
  · exact tryApply_alike h fun s s' hs => hs.popScope shared shared guard.expectedDepth

section

variable {g : Globals U} {registry' : Registry U}

/-- **One operation** under two registries that differ in their cached keys: from states that look
alike it answers alike, and a fork of stores that hold the same keys keeps the states alike. -/
theorem step_related (hreg : g.registry.SameButCached registry') (p : State U × State U) (op : Op U)
    (h : Related p) (hop : ForksHoldSameKeys p op) :
    Related (both (step g) (step { g with registry := registry' }) p op).1 ∧
      (step g p.1 op).2 = (step { g with registry := registry' } p.2 op).2 := by
  obtain ⟨⟨cell, stores, snapshots, guards⟩, ⟨cell', stores', snapshots', guards'⟩⟩ := p
  have hsame := h
  obtain ⟨hcell, hstores, hsnapshots, hguards⟩ := h
  dsimp only at hcell hstores hsnapshots hguards
  subst hsnapshots
  cases op with
  | pushScope name =>
    have hpush : SameCell (Thread.pushScope g name cell).1
        (Thread.pushScope { g with registry := registry' } name cell').1 :=
      tryApply_alike hcell fun s s' hs => hs.pushScope g.registry registry' (some name)
    refine ⟨⟨hpush, hstores, rfl, hguards⟩, ?_⟩
    cases hcell with
    | none => rfl
    | some hs =>
      simp only [step, Thread.pushScope_some]
      rw [hs.depth]
  | dropScopeGuard guard shared =>
    exact ⟨⟨scopeGuard_drop_alike hcell guard shared, hstores, rfl, hguards⟩, rfl⟩
  | setContextVariable t key value =>
    have hset : SameCell (Thread.setContextVariable t key value cell)
        (Thread.setContextVariable t key value cell') :=
      tryApply_alike hcell fun s s' hs => hs.setValue key ⟨t, value⟩
    exact ⟨⟨hset, hstores, rfl, hguards⟩, rfl⟩
  | mergeWith i =>
    rcases forall₂_getElem? hstores i with ⟨hi, hi'⟩ | ⟨source, source', hi, hi', hsource, hrest⟩
    · simp only [both, step, hi, hi']
      exact ⟨hsame, trivial⟩
    · have hmerge : SameCell (Thread.mergeWith source cell) (Thread.mergeWith source' cell') :=
        tryApply_alike hcell fun s s' hs => hs.mergeWith hsource
      simp only [both, step, hi, hi']
      exact ⟨⟨hmerge, hrest, rfl, hguards⟩, trivial⟩
  | clear =>
    have hclear : SameCell (Thread.clear cell) (Thread.clear cell') :=
      tryApply_alike hcell fun s s' hs => .refl ContextStore.WellFormed.new
    exact ⟨⟨hclear, hstores, rfl, hguards⟩, rfl⟩
  | fork =>
    have hfork : (Thread.fork cell).Alike (Thread.fork cell') := by
      cases hcell with
      | none => exact .refl ContextStore.WellFormed.new
      | some hs => exact hs.forkChild_iff.mpr (hop _ rfl _ rfl)
    exact ⟨⟨hcell, List.rel_append hstores (.cons hfork .nil), rfl, hguards⟩, rfl⟩
  | attachStore i =>
    rcases forall₂_getElem? hstores i with ⟨hi, hi'⟩ | ⟨store, store', hi, hi', hstore, hrest⟩
    · simp only [both, step, hi, hi']
      exact ⟨hsame, trivial⟩
    · simp only [both, step, hi, hi']
      exact ⟨⟨.some hstore, hrest, rfl, List.rel_append hguards (.cons hcell .nil)⟩, trivial⟩
  | capture =>
    have hcapture : Thread.capture g cell =
        Thread.capture { g with registry := registry' } cell' := by
      cases hcell with
      | none => rfl
      | some hs => exact ContextStore.captureWithRegistry_congr hreg hs _
    refine ⟨⟨hcell, hstores, ?_, hguards⟩, congrArg Reply.snapshot hcapture⟩
    exact congrArg (fun snap => snapshots ++ [snap]) hcapture
  | receive snap => exact ⟨⟨hcell, hstores, rfl, hguards⟩, rfl⟩
  | attachSnapshot i =>
    cases hi : snapshots[i]? with
    | none =>
      simp only [both, step, hi]
      exact ⟨hsame, trivial⟩
    | some snap =>
      have hstore := ContextStore.Alike.refl
        (storeFromSnapshot_reachable snap g.registry).wellFormed
      simp only [both, step, hi]
      refine ⟨⟨.some ?_, hstores, rfl, List.rel_append hguards (.cons hcell .nil)⟩, trivial⟩
      rw [← ContextStore.storeFromSnapshotWithRegistry_congr hreg]
      exact hstore
  | convert i =>
    cases hi : snapshots[i]? with
    | none =>
      simp only [both, step, hi]
      exact ⟨hsame, trivial⟩
    | some snap =>
      have hstore := ContextStore.Alike.refl
        (storeFromSnapshot_reachable snap g.registry).wellFormed
      simp only [both, step, hi]
      refine ⟨⟨hcell, List.rel_append hstores (.cons ?_ .nil), rfl, hguards⟩, trivial⟩
      rw [← ContextStore.storeFromSnapshotWithRegistry_congr hreg]
      exact hstore
  | dropAttachGuard i =>
    rcases forall₂_getElem? hguards i with ⟨hi, hi'⟩ | ⟨guard, guard', hi, hi', hguard, hrest⟩
    · simp only [both, step, hi, hi']
      exact ⟨hsame, trivial⟩
    · simp only [both, step, hi, hi']
      exact ⟨⟨hguard, hstores, rfl, hrest⟩, trivial⟩
  | getValue key =>
    refine ⟨hsame, ?_⟩
    cases hcell with
    | none => rfl
    | some hs => exact congrArg Reply.value (hs.getValue key)
  | collectValues =>
    refine ⟨hsame, ?_⟩
    cases hcell with
    | none => rfl
    | some hs => exact congrArg Reply.values hs.collectValues
  | scopeChain =>
    refine ⟨hsame, ?_⟩
    cases hcell with
    | none => rfl
    | some hs => exact congrArg Reply.names (hs.scopeChain g.maxScopeChainLen)

/-- **Caching is transparent** along every run whose forks all hold the same keys under both
registries: it answers alike. -/
theorem replies_eq (hreg : g.registry.SameButCached registry') {s₀ : ContextStore U}
    (hs₀ : s₀.WellFormed) (ops : List (Op U))
    (hops : Along (both (step g) (step { g with registry := registry' })) ForksHoldSameKeys
      (start s₀, start s₀) ops) :
    replies g s₀ ops = replies { g with registry := registry' } s₀ ops :=
  run_both_along (step_related hreg) ops (start s₀, start s₀) (start_related hs₀) hops

/-- Reading a key of a fork just made. -/
theorem run_read_of_fork (g : Globals U) (st : State U) {s : ContextStore U}
    (hcell : st.cell = some s) (key : Key) :
    (run (step g) st [.fork, .attachStore st.stores.length, .getValue key]).2 =
      [.done, .done, .value (s.forkChild.getValue key)] := by
  have hfork : (st.stores ++ [Thread.fork st.cell])[st.stores.length]? = some s.forkChild := by
    rw [List.getElem?_concat_length, hcell]
    rfl
  simp only [run_cons, run_nil, step, hfork]
  rfl

/-- A fork of stores that hold different keys is told apart by attaching it and reading one of
them. -/
theorem read_of_fork_differs (registry' : Registry U) {st st' : State U} (h : Related (st, st'))
    (hop : ¬ ForksHoldSameKeys (st, st') .fork) :
    ∃ i key, (run (step g) st [.fork, .attachStore i, .getValue key]).2 ≠
      (run (step { g with registry := registry' }) st'
        [.fork, .attachStore i, .getValue key]).2 := by
  have hlength : st.stores.length = st'.stores.length := h.stores.length_eq
  simp only [ForksHoldSameKeys, not_forall] at hop
  obtain ⟨s, hs, s', hs', key, hkey⟩ := hop
  have halike : s.Alike s' := by
    have hcell := h.cell
    rw [Option.mem_def.mp hs, Option.mem_def.mp hs'] at hcell
    cases hcell with
    | some halike => exact halike
  refine ⟨st.stores.length, key, ?_⟩
  rw [run_read_of_fork g st hs, hlength, run_read_of_fork _ st' hs']
  intro heq
  refine hkey ((halike.getValue_forkChild_iff key).mp ?_)
  simpa using heq

/-- **Caching is transparent exactly when forks hold the same keys**: two registries that differ in
their cached keys answer alike in a run, and in all runs that leave it after a fork to attach the
new store and read a key, exactly when the own scopes of each forked store hold the same keys
under both. -/
theorem caching_transparent_iff (hreg : g.registry.SameButCached registry') {s₀ : ContextStore U}
    (hs₀ : s₀.Reachable) (ops : List (Op U)) :
    (replies g s₀ ops = replies { g with registry := registry' } s₀ ops ∧
        ∀ before after, ops = before ++ .fork :: after → ∀ i key,
          replies g s₀ (before ++ [.fork, .attachStore i, .getValue key]) =
            replies { g with registry := registry' } s₀
              (before ++ [.fork, .attachStore i, .getValue key])) ↔
      Along (both (step g) (step { g with registry := registry' })) ForksHoldSameKeys
        (start s₀, start s₀) ops := by
  constructor
  · rintro ⟨-, hreads⟩
    by_contra hbreak
    obtain ⟨before, op, after, hops, hbefore, hop⟩ := exists_first_break ops _ hbreak
    -- up to the first fork that breaks the condition the two threads look alike
    have hrelated := run_along (fun p op h hop => (step_related hreg p op h hop).1) before _
      (start_related hs₀.wellFormed) hbefore
    rw [run_both] at hrelated hop
    cases op with
    | fork =>
      obtain ⟨i, key, hdiffer⟩ := read_of_fork_differs registry' hrelated hop
      have heq := hreads before after hops i key
      have hprefix := replies_eq hreg hs₀.wellFormed before hbefore
      unfold replies at heq hprefix
      rw [run_replies_append, run_replies_append, hprefix, List.append_cancel_left_eq] at heq
      exact hdiffer heq
    | _ => exact absurd trivial hop
  · intro hops
    refine ⟨replies_eq hreg hs₀.wellFormed ops hops, ?_⟩
    rintro before after rfl i key
    obtain ⟨hbefore, hfork, -⟩ := (along_append _ _ _).mp hops
    refine replies_eq hreg hs₀.wellFormed _ ((along_append _ _ _).mpr ⟨hbefore, hfork, ?_⟩)
    exact ⟨trivial, trivial, trivial⟩

/-- The forked stores inherit nothing. -/
def ForksRoots (p : State U × State U) : Op U → Prop
  | .fork => (∀ s ∈ p.1.cell, s.frozenParent = []) ∧ ∀ s ∈ p.2.cell, s.frozenParent = []
  | _ => True

/-- **Forks of stores that inherit nothing** never tell the registries apart. -/
theorem replies_eq_of_forks_of_roots (hreg : g.registry.SameButCached registry')
    {s₀ : ContextStore U} (hs₀ : s₀.WellFormed) (ops : List (Op U))
    (hops : Along (both (step g) (step { g with registry := registry' })) ForksRoots
      (start s₀, start s₀) ops) :
    replies g s₀ ops = replies { g with registry := registry' } s₀ ops := by
  have hkeys : ∀ p (op : Op U), Related p → ForksRoots p op → ForksHoldSameKeys p op := by
    rintro ⟨st, st'⟩ op h hop
    cases op with
    | fork =>
      intro s hs s' hs' key
      have hcell := h.cell
      rw [Option.mem_def.mp hs, Option.mem_def.mp hs'] at hcell
      cases hcell with
      | some halike => exact halike.holdsKey_iff (hop.1 s hs) (hop.2 s' hs') key
    | _ => trivial
  refine replies_eq hreg hs₀ ops (along_mono ?_ hkeys ops _ (start_related hs₀) hops)
  intro p op h hop
  exact (step_related hreg p op h (hkeys p op h hop)).1

end

/-- A registry with one number, cached or not. -/
def oneNumberRegistry (calls : List (OptionCall primitiveTypes PrimitiveType.u64)) :
    Registry primitiveTypes :=
  ⟨buildMap [.register PrimitiveType.u64 "user" calls]⟩

theorem oneNumberRegistry_sameButCached :
    (oneNumberRegistry [.cached]).SameButCached (oneNumberRegistry []) := by
  intro key
  have hcached : (oneNumberRegistry [.cached]).map = Finmap.insert "user"
      (newRegistration PrimitiveType.u64 "user" (.configure [.cached])) ∅ := rfl
  have hplain : (oneNumberRegistry []).map = Finmap.insert "user"
      (newRegistration PrimitiveType.u64 "user" (.configure [])) ∅ := rfl
  rw [hcached, hplain, Map.lookup_insert_eq, Map.lookup_insert_eq]
  split_ifs <;> rfl

/-- A fork of a store that holds a number, read in a scope of its own. -/
theorem caching_transparent_number :
    replies (.withRegistry (oneNumberRegistry [.cached])) .new
        [.setContextVariable PrimitiveType.u64 "user" (7 : UInt64), .fork, .attachStore 0,
          .pushScope "work", .getValue "user"] =
      replies (.withRegistry (oneNumberRegistry [])) .new
        [.setContextVariable PrimitiveType.u64 "user" (7 : UInt64), .fork, .attachStore 0,
          .pushScope "work", .getValue "user"] := by
  refine ((caching_transparent_iff (g := .withRegistry (oneNumberRegistry [.cached]))
    oneNumberRegistry_sameButCached .new _).mpr ?_).1
  refine ⟨trivial, ?_, trivial, trivial, trivial, trivial⟩
  rintro s ⟨⟩ s' ⟨⟩ key
  exact Iff.rfl

/-- A scope is opened on a fork, the store is forked again, and the number of the first store is
read. -/
def readOfSecondFork : List (Op primitiveTypes) :=
  [.setContextVariable PrimitiveType.u64 "user" (7 : UInt64), .fork, .attachStore 0,
    .pushScope "work", .fork, .attachStore 0, .getValue "user"]

/-- The copy that the scope has of a cached number survives the second fork; without it the number
is lost. -/
theorem caching_shows :
    (oneNumberRegistry [.cached]).SameButCached (oneNumberRegistry []) ∧
      (replies (.withRegistry (oneNumberRegistry [.cached])) .new readOfSecondFork).getLast? =
        some (.value (some (u64Value 7))) ∧
      (replies (.withRegistry (oneNumberRegistry [])) .new readOfSecondFork).getLast? =
        some (.value none) ∧
      replies (.withRegistry (oneNumberRegistry [.cached])) .new readOfSecondFork ≠
        replies (.withRegistry (oneNumberRegistry [])) .new readOfSecondFork := by
  have hcached : (replies (.withRegistry (oneNumberRegistry [.cached])) .new
      readOfSecondFork).getLast? = some (.value (some (u64Value 7))) := rfl
  have hplain : (replies (.withRegistry (oneNumberRegistry [])) .new
      readOfSecondFork).getLast? = some (.value none) := rfl
  refine ⟨oneNumberRegistry_sameButCached, hcached, hplain, ?_⟩
  intro heq
  rw [heq, hplain] at hcached
  cases hcached

end Transparency

end DContext
