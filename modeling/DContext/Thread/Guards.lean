import DContext.Thread.Context
import DContext.System.Run

/-!
# Guards and the scopes they made

A scope guard carries the depth its push reached, and nothing else. Every push is given an
identity here, and every store the identities of its pushed scopes, so that it can be said which
scope a guard made and which scopes its drop removes. Guards are held by the program and dropped
in any order.

## Main definitions

* `RootStore U`: the stores a program can attach
* `GuardState U`, `GuardOp U`, `step`: one thread with its guards
* `ActsOnOwnScope`: a drop removes the scope of its guard and those above it, or nothing
* `DepthIsOwn`: the scope at the depth of the guard, if any, is the scope of the guard
* `Tracked`: the invariant
* `pairBlock`: a block under the pair of guards of `attach_snapshot_with_scope`

## Main results

* `step_tracked`: every operation keeps the invariant
* `actsOnOwnScope_iff`: one drop
* `guards_act_on_own_scope_iff`: every run
* `pair_restores_iff`: when the pair, dropped as one value, restores the caller's context
-/

namespace DContext

open Overlay StepSystem

variable {U : TypeUniverse}

/-- The stores a program can hold, made by `fork` or from a snapshot: a root scope alone. -/
structure RootStore (U : TypeUniverse) where
  store : ContextStore U
  wf : store.WellFormed
  depth_eq : store.depth = 1

namespace RootStore

/-- The store of a new thread. -/
def new : RootStore U := ⟨.new, .new, rfl⟩

/-- A fork of the store in the cell. -/
def fork (s : ContextStore U) (h : s.WellFormed) : RootStore U := ⟨s.forkChild, h.forkChild, rfl⟩

/-- A converted snapshot. -/
def ofSnapshot (g : Globals U) (snap : ContextSnapshot U) : RootStore U where
  store := storeFromSnapshotWithRegistry snap g.registry
  wf := (storeFromSnapshot_reachable snap g.registry).wellFormed
  depth_eq := rfl

end RootStore

namespace Guards

/-- A guard the program holds: with the identity of its push, or with the identities of the pushed
scopes of the store it keeps. -/
inductive Guard (U : TypeUniverse)
  | scope (id : Nat) (guard : ScopeGuard)
  | attach (guard : AttachGuard U) (scopes : List Nat)

/-- One thread: its cell, the identities of the pushed scopes of the store in the cell, outermost
first, the guards held, and the next identity. -/
structure GuardState (U : TypeUniverse) where
  cell : Cell U
  scopes : List Nat
  guards : List (Guard U)
  nextId : Nat

/-- What a program does on the thread. A drop names a guard by its place among those held. -/
inductive GuardOp (U : TypeUniverse)
  | pushScope (name : String)
  | setContextVariable (t : U.TypeId) (key : Key) (value : U.El t)
  | clear
  | attachStore (store : RootStore U)
  | attachSnapshot (snap : ContextSnapshot U)
  | drop (i : Nat) (shared : List (ScopeNode U) → Bool)

/-- The identities left after the store in the cell has lost scopes. -/
def keptScopes (cell : Cell U) (scopes : List Nat) : List Nat :=
  scopes.take ((cell.map fun s => s.depth - 1).getD 0)

def step (g : Globals U) (st : GuardState U) : GuardOp U → GuardState U × Unit
  | .pushScope name =>
    let r := Thread.pushScope g name st.cell
    -- without a store the guard is the no-op guard, and its identity is that of no scope
    ({ cell := r.1
       scopes := if st.cell.isSome then st.scopes ++ [st.nextId] else st.scopes
       guards := st.guards ++ [.scope st.nextId r.2]
       nextId := st.nextId + 1 }, ())
  | .setContextVariable t key value =>
    ({ st with cell := Thread.setContextVariable t key value st.cell }, ())
  | .clear => ({ st with cell := Thread.clear st.cell, scopes := [] }, ())
  -- the guard keeps the store that was in the cell, and with it its scopes
  | .attachStore store =>
    let r := Thread.attachStore store.store st.cell
    ({ st with cell := r.1, scopes := [], guards := st.guards ++ [.attach r.2 st.scopes] }, ())
  | .attachSnapshot snap =>
    let r := Thread.attachSnapshot g snap st.cell
    ({ st with cell := r.1, scopes := [], guards := st.guards ++ [.attach r.2 st.scopes] }, ())
  | .drop i shared =>
    match st.guards[i]? with
    | none => (st, ())
    | some (.scope _ guard) =>
      let cell := guard.drop shared st.cell
      ({ st with
          cell := cell
          scopes := keptScopes cell st.scopes
          guards := st.guards.eraseIdx i }, ())
    | some (.attach guard scopes) =>
      ({ st with cell := guard.drop, scopes := scopes, guards := st.guards.eraseIdx i }, ())

/-- A thread with a root store, or none, in its cell. -/
def start (initial : Option (RootStore U)) : GuardState U where
  cell := initial.map RootStore.store
  scopes := []
  guards := []
  nextId := 0

/-- Dropping a scope guard removes the scope its push made and those above it, if that scope is
one of the store in the cell, and otherwise leaves the cell as it is. -/
def ActsOnOwnScope (st : GuardState U) : GuardOp U → Prop
  | .drop i shared =>
    match st.guards[i]? with
    | some (.scope id guard) =>
      if id ∈ st.scopes then
        ∃ s s', st.cell = some s ∧ guard.drop shared st.cell = some s' ∧
          ContextStore.CutTo (st.scopes.idxOf id + 1) s s'
      else guard.drop shared st.cell = st.cell
    | _ => True
  | _ => True

/-- The store in the cell does not reach the depth of the guard dropped, or has the guard's own
scope there. The drop of a guard at the depth `usize::MAX` does nothing, so there the scope must
not be the guard's. -/
def DepthIsOwn (st : GuardState U) : GuardOp U → Prop
  | .drop i _ =>
    match st.guards[i]?, st.cell with
    | some (.scope id guard), some s =>
      s.depth < guard.expectedDepth ∨
        if guard.expectedDepth = usizeMax then st.scopes[guard.expectedDepth - 2]? ≠ some id
        else st.scopes[guard.expectedDepth - 2]? = some id
    | _, _ => True
  | _ => True

/-! ## The invariant -/

/-- The identities are those of the pushed scopes of the store. -/
def Matches : Cell U → List Nat → Prop
  | none, scopes => scopes = []
  | some s, scopes => s.WellFormed ∧ scopes.length + 1 = s.depth

/-- The store in the cell and the stores that attach guards keep, with their identities. -/
def stores (st : GuardState U) : List (Cell U × List Nat) :=
  (st.cell, st.scopes) :: st.guards.filterMap fun
    | .attach guard scopes => some (guard.prev, scopes)
    | .scope _ _ => none

/-- **Tracking**: identities are those of scopes, they are never given twice, and wherever the
scope of a guard still is, it is at the depth of the guard. -/
structure Tracked (st : GuardState U) : Prop where
  matching : ∀ f ∈ stores st, Matches f.1 f.2
  fresh : ∀ f ∈ stores st, ∀ id ∈ f.2, id < st.nextId
  guard : ∀ id guard, .scope id guard ∈ st.guards → 2 ≤ guard.expectedDepth ∧ id < st.nextId ∧
    ∀ f ∈ stores st, ∀ p, f.2[p]? = some id → guard.expectedDepth = p + 2

theorem start_tracked (initial : Option (RootStore U)) : Tracked (start initial) := by
  have hstores : stores (start initial) = [(initial.map RootStore.store, [])] := rfl
  refine ⟨?_, ?_, fun id guard h => by cases h⟩
  · intro f hf
    rw [hstores, List.mem_singleton] at hf
    subst hf
    cases initial with
    | none => rfl
    | some root => exact ⟨root.wf, root.depth_eq.symm⟩
  · intro f hf id hid
    rw [hstores, List.mem_singleton] at hf
    subst hf
    cases hid

theorem mem_stores_of_attach {st : GuardState U} {guard : AttachGuard U} {scopes : List Nat}
    (h : .attach guard scopes ∈ st.guards) : (guard.prev, scopes) ∈ stores st :=
  List.mem_cons_of_mem _ (List.mem_filterMap.mpr ⟨_, h, rfl⟩)

/-- What holds the invariant keeps it when guards go and stores lose their upper scopes. -/
theorem Tracked.shrink {st st' : GuardState U} (h : Tracked st) (hid : st'.nextId = st.nextId)
    (hguards : ∀ id guard, .scope id guard ∈ st'.guards → .scope id guard ∈ st.guards)
    (hstores : ∀ f ∈ stores st', Matches f.1 f.2 ∧ ∃ f' ∈ stores st, f.2 <+: f'.2) :
    Tracked st' := by
  refine ⟨fun f hf => (hstores f hf).1, ?_, ?_⟩
  · intro f hf id hmem
    obtain ⟨-, f', hf', hpre⟩ := hstores f hf
    rw [hid]
    exact h.fresh f' hf' id (hpre.subset hmem)
  · intro id guard hg
    obtain ⟨hdepth, hlt, hplace⟩ := h.guard id guard (hguards id guard hg)
    refine ⟨hdepth, hid ▸ hlt, ?_⟩
    intro f hf p hp
    obtain ⟨-, f', hf', hpre⟩ := hstores f hf
    obtain ⟨upper, happend⟩ := hpre
    refine hplace f' hf' p ?_
    rw [← happend, List.getElem?_append_left (List.getElem?_eq_some_iff.mp hp).1, hp]

/-- A store that stays as it is. -/
theorem Tracked.kept {st : GuardState U} (h : Tracked st) {f : Cell U × List Nat}
    (hf : f ∈ stores st) : Matches f.1 f.2 ∧ ∃ f' ∈ stores st, f.2 <+: f'.2 :=
  ⟨h.matching f hf, f, hf, List.prefix_rfl⟩

/-- A store that is put in the cell with some of the scopes that were there. -/
theorem Matches.active {st : GuardState U} {cell : Cell U} {scopes : List Nat}
    (h : Matches cell scopes) (hpre : scopes <+: st.scopes) :
    Matches cell scopes ∧ ∃ f' ∈ stores st, scopes <+: f'.2 :=
  ⟨h, (st.cell, st.scopes), List.mem_cons_self, hpre⟩

theorem getElem?_push {scopes : List Nat} {newId p id : Nat}
    (h : (scopes ++ [newId])[p]? = some id) :
    scopes[p]? = some id ∨ p = scopes.length ∧ id = newId := by
  rcases Nat.lt_or_ge p scopes.length with hp | hp
  · rw [List.getElem?_append_left hp] at h
    exact .inl h
  · rw [List.getElem?_append_right hp] at h
    have hlt := (List.getElem?_eq_some_iff.mp h).1
    rw [List.length_singleton] at hlt
    exact .inr ⟨by omega, List.mem_singleton.mp (List.mem_of_getElem? h)⟩

/-- What holds the invariant keeps it when a new identity goes to a new guard, and to no scope or
to one on top of the active store, at the depth of the guard. -/
theorem Tracked.extend {st st' : GuardState U} (h : Tracked st) {newGuard : ScopeGuard}
    (hid : st'.nextId = st.nextId + 1) (hdepth : 2 ≤ newGuard.expectedDepth)
    (hguards : ∀ id guard, .scope id guard ∈ st'.guards →
      .scope id guard ∈ st.guards ∨ id = st.nextId ∧ guard = newGuard)
    (hstores : ∀ f ∈ stores st', f ∈ stores st ∨
      Matches f.1 f.2 ∧ f.2 = st.scopes ++ [st.nextId] ∧
        newGuard.expectedDepth = st.scopes.length + 2) :
    Tracked st' := by
  have hactive : (st.cell, st.scopes) ∈ stores st := List.mem_cons_self
  refine ⟨?_, ?_, ?_⟩
  · intro f hf
    rcases hstores f hf with hf | ⟨hmatch, -⟩
    · exact h.matching f hf
    · exact hmatch
  · intro f hf id hmem
    rw [hid]
    rcases hstores f hf with hf | ⟨-, hscopes, -⟩
    · exact Nat.lt_succ_of_lt (h.fresh f hf id hmem)
    · rw [hscopes] at hmem
      rcases List.mem_append.mp hmem with hmem | hmem
      · exact Nat.lt_succ_of_lt (h.fresh _ hactive id hmem)
      · obtain rfl := List.mem_singleton.mp hmem
        exact Nat.lt_succ_self _
  · intro id guard hg
    rw [hid]
    rcases hguards id guard hg with hg | ⟨rfl, rfl⟩
    · obtain ⟨hguard, hlt, hplace⟩ := h.guard id guard hg
      refine ⟨hguard, Nat.lt_succ_of_lt hlt, ?_⟩
      intro f hf p hp
      rcases hstores f hf with hf | ⟨-, hscopes, -⟩
      · exact hplace f hf p hp
      · rw [hscopes] at hp
        rcases getElem?_push hp with hp | ⟨-, rfl⟩
        · exact hplace _ hactive p hp
        · exact absurd hlt (Nat.lt_irrefl _)
    · refine ⟨hdepth, Nat.lt_succ_self _, ?_⟩
      intro f hf p hp
      rcases hstores f hf with hf | ⟨-, hscopes, hlast⟩
      · exact absurd (h.fresh f hf _ (List.mem_of_getElem? hp)) (Nat.lt_irrefl _)
      · rw [hscopes] at hp
        rcases getElem?_push hp with hp | ⟨rfl, -⟩
        · exact absurd (h.fresh _ hactive _ (List.mem_of_getElem? hp)) (Nat.lt_irrefl _)
        · exact hlast

/-- A push puts its identity on top, at the depth it returns. -/
theorem Tracked.pushScope {g : Globals U} {st : GuardState U} (h : Tracked st) (name : String) :
    Tracked (step g st (.pushScope name)).1 := by
  obtain ⟨cell, scopes, guards, nextId⟩ := st
  have hactive := h.matching (cell, scopes) List.mem_cons_self
  have hguards : ∀ newGuard id guard, .scope id guard ∈ guards ++ [.scope nextId newGuard] →
      (.scope id guard : Guard U) ∈ guards ∨ id = nextId ∧ guard = newGuard := by
    intro newGuard id guard hg
    rcases List.mem_append.mp hg with hg | hg
    · exact .inl hg
    · exact .inr (Guard.scope.inj (List.mem_singleton.mp hg))
  cases cell with
  | none =>
    refine h.extend rfl (by decide : 2 ≤ ScopeGuard.noop.expectedDepth) (hguards _) ?_
    intro f hf
    have hstores : stores (step g ⟨none, scopes, guards, nextId⟩ (.pushScope name)).1 =
        stores ⟨none, scopes, guards, nextId⟩ := by
      simp [stores, step]
    rw [hstores] at hf
    exact .inl hf
  | some s =>
    have hwf : s.WellFormed := hactive.1
    have hlength : scopes.length + 1 = s.depth := hactive.2
    refine h.extend rfl (Nat.succ_le_succ hwf.depth_pos) (fun id guard hg => ?_) ?_
    · rw [step, Thread.pushScope_some] at hg
      exact hguards _ id guard hg
    · intro f hf
      simp only [stores, step, Thread.pushScope_some, Option.isSome_some, if_true,
        List.filterMap_append, List.filterMap_cons, List.filterMap_nil, List.append_nil,
        List.mem_cons] at hf
      rcases hf with rfl | hf
      · refine .inr ⟨⟨hwf.pushScope g.registry (some name), ?_⟩, rfl, ?_⟩
        · rw [ContextStore.depth_pushScope, List.length_append, List.length_singleton, hlength]
        · show s.depth + 1 = scopes.length + 2
          omega
      · exact .inl (List.mem_cons_of_mem _ hf)

theorem matches_setContextVariable {cell : Cell U} {scopes : List Nat} (h : Matches cell scopes)
    (t : U.TypeId) (key : Key) (value : U.El t) :
    Matches (Thread.setContextVariable t key value cell) scopes := by
  cases cell with
  | none => exact h
  | some s => exact ⟨h.1.setValue key ⟨t, value⟩, h.2⟩

theorem matches_clear (cell : Cell U) : Matches (Thread.clear cell) [] := by
  cases cell with
  | none => rfl
  | some s => exact ⟨.new, rfl⟩

/-- What a dropped scope guard leaves matches the identities kept. -/
theorem matches_scopeGuard_drop {cell : Cell U} {scopes : List Nat} (h : Matches cell scopes)
    (shared : List (ScopeNode U) → Bool) {guard : ScopeGuard} (hdepth : 2 ≤ guard.expectedDepth) :
    Matches (guard.drop shared cell) (keptScopes (guard.drop shared cell) scopes) := by
  cases cell with
  | none =>
    obtain rfl : scopes = [] := h
    rw [Thread.scopeGuard_drop_none]
    rfl
  | some s =>
    obtain ⟨hwf, hlength⟩ := h
    rw [Thread.scopeGuard_drop]
    -- whatever the drop leaves, as many identities are kept as it has pushed scopes
    have hcut : ∀ s' : ContextStore U, s'.WellFormed → s'.depth ≤ s.depth →
        Matches (some s') (keptScopes (some s') scopes) := by
      intro s' hwf' hle
      have hpos := hwf'.depth_pos
      refine ⟨hwf', ?_⟩
      show (scopes.take (s'.depth - 1)).length + 1 = s'.depth
      rw [List.length_take]
      omega
    split_ifs with hmax
    · exact hcut s hwf (Nat.le_refl _)
    · rcases Nat.lt_or_ge s.depth guard.expectedDepth with hstale | hreach
      · rw [ContextStore.popScope_of_stale shared (.inl hstale)]
        exact hcut s hwf (Nat.le_refl _)
      · have hpop := ContextStore.popScope_cutTo shared hwf (by omega) hreach
        refine hcut _ hpop.wf ?_
        rw [hpop.depth]
        omega

theorem Tracked.drop {g : Globals U} {st : GuardState U} (h : Tracked st) (i : Nat)
    (shared : List (ScopeNode U) → Bool) : Tracked (step g st (.drop i shared)).1 := by
  have hsub : ∀ guard, guard ∈ st.guards.eraseIdx i → guard ∈ st.guards := fun guard hg =>
    List.mem_of_mem_eraseIdx hg
  have hkept : ∀ f, f ∈ (st.guards.eraseIdx i).filterMap (fun
      | .attach guard scopes => some (guard.prev, scopes)
      | .scope _ _ => none : Guard U → Option (Cell U × List Nat)) → f ∈ stores st := by
    intro f hf
    obtain ⟨guard, hg, he⟩ := List.mem_filterMap.mp hf
    exact List.mem_cons_of_mem _ (List.mem_filterMap.mpr ⟨guard, hsub guard hg, he⟩)
  cases hi : st.guards[i]? with
  | none => simpa only [step, hi] using h
  | some guard =>
    have hmem : guard ∈ st.guards := List.mem_of_getElem? hi
    cases guard with
    | scope id guard =>
      have hactive := h.matching (st.cell, st.scopes) List.mem_cons_self
      simp only [step, hi]
      refine h.shrink rfl (fun id' guard' hg => hsub _ hg) fun f hf => ?_
      rcases List.mem_cons.mp hf with rfl | hf
      · exact (matches_scopeGuard_drop hactive shared (h.guard id guard hmem).1).active
          (List.take_prefix _ _)
      · exact h.kept (hkept f hf)
    | attach guard scopes =>
      have hprev := mem_stores_of_attach hmem
      simp only [step, hi]
      refine h.shrink rfl (fun id' guard' hg => hsub _ hg) fun f hf => ?_
      rcases List.mem_cons.mp hf with rfl | hf
      · exact h.kept hprev
      · exact h.kept (hkept f hf)

/-- Attaching a root store moves the store in the cell into the guard. -/
theorem Tracked.attach {st : GuardState U} (h : Tracked st) (root : RootStore U) :
    Tracked { st with
      cell := some root.store
      scopes := []
      guards := st.guards ++ [.attach ⟨st.cell⟩ st.scopes] } := by
  refine h.shrink rfl (fun id guard hg => ?_) fun f hf => ?_
  · rcases List.mem_append.mp hg with hg | hg
    · exact hg
    · cases List.mem_singleton.mp hg
  · simp only [stores, List.filterMap_append, List.filterMap_cons, List.filterMap_nil,
      List.mem_cons, List.mem_append, List.not_mem_nil, or_false] at hf
    rcases hf with rfl | hf | rfl
    · have hroot : Matches (some root.store) [] := ⟨root.wf, root.depth_eq.symm⟩
      exact hroot.active List.nil_prefix
    · exact h.kept (List.mem_cons_of_mem _ hf)
    · exact h.kept List.mem_cons_self

/-- **Every operation keeps the invariant.** -/
theorem step_tracked (g : Globals U) (st : GuardState U) (op : GuardOp U) (h : Tracked st) :
    Tracked (step g st op).1 := by
  have hactive := h.matching (st.cell, st.scopes) List.mem_cons_self
  cases op with
  | pushScope name => exact h.pushScope name
  | setContextVariable t key value =>
    refine h.shrink rfl (fun id guard hg => hg) fun f hf => ?_
    rcases List.mem_cons.mp hf with rfl | hf
    · exact (matches_setContextVariable hactive t key value).active List.prefix_rfl
    · exact h.kept (List.mem_cons_of_mem _ hf)
  | clear =>
    refine h.shrink rfl (fun id guard hg => hg) fun f hf => ?_
    rcases List.mem_cons.mp hf with rfl | hf
    · exact (matches_clear st.cell).active List.nil_prefix
    · exact h.kept (List.mem_cons_of_mem _ hf)
  | attachStore root => exact h.attach root
  | attachSnapshot snap => exact h.attach (.ofSnapshot g snap)
  | drop i shared => exact h.drop i shared

/-! ## What a drop removes -/

/-- A drop leaves the store as it is when the store is less deep than the guard, or the guard is the
no-op guard. -/
theorem scopeGuard_drop_eq_self_iff {s : ContextStore U} (hs : s.WellFormed)
    (shared : List (ScopeNode U) → Bool) {guard : ScopeGuard} (hdepth : 1 < guard.expectedDepth) :
    guard.drop shared (some s) = some s ↔
      s.depth < guard.expectedDepth ∨ guard.expectedDepth = usizeMax := by
  rw [Thread.scopeGuard_drop]
  by_cases hmax : guard.expectedDepth = usizeMax
  · simp [hmax]
  · rw [if_neg hmax, Option.some.injEq, ContextStore.popScope_eq_self_iff shared hs hdepth]
    simp [hmax]

/-- A drop that reaches its depth cuts the store below it, unless the guard is the no-op guard. -/
theorem scopeGuard_drop_cutTo_iff {s : ContextStore U} (hs : s.WellFormed)
    (shared : List (ScopeNode U) → Bool) {guard : ScopeGuard} (hdepth : 1 < guard.expectedDepth)
    (hreach : guard.expectedDepth ≤ s.depth) :
    (∃ s', guard.drop shared (some s) = some s' ∧
        ContextStore.CutTo (guard.expectedDepth - 1) s s') ↔ guard.expectedDepth ≠ usizeMax := by
  rw [Thread.scopeGuard_drop]
  by_cases hmax : guard.expectedDepth = usizeMax
  · rw [if_pos hmax]
    simp only [hmax, ne_eq, not_true, iff_false]
    rintro ⟨s', hs', hcut⟩
    obtain rfl := Option.some.inj hs'
    have hd := hcut.depth
    omega
  · rw [if_neg hmax]
    simp only [hmax, ne_eq, not_false_eq_true, iff_true]
    exact ⟨_, rfl, ContextStore.popScope_cutTo shared hs hdepth hreach⟩

/-- The scope of a guard, where the active store has it, is at the depth of the guard. -/
theorem Tracked.idxOf_scope {st : GuardState U} (h : Tracked st) {id : Nat} {guard : ScopeGuard}
    (hg : .scope id guard ∈ st.guards) (hmem : id ∈ st.scopes) :
    guard.expectedDepth = st.scopes.idxOf id + 2 :=
  (h.guard id guard hg).2.2 (st.cell, st.scopes) List.mem_cons_self _ (List.getElem?_idxOf hmem)

theorem Tracked.scope_at_depth {st : GuardState U} (h : Tracked st) {id : Nat} {guard : ScopeGuard}
    (hg : .scope id guard ∈ st.guards) :
    st.scopes[guard.expectedDepth - 2]? = some id ↔ id ∈ st.scopes := by
  constructor
  · exact List.mem_of_getElem?
  · intro hmem
    rw [h.idxOf_scope hg hmem, Nat.add_sub_cancel]
    exact List.getElem?_idxOf hmem

/-- **One drop** acts on the scope of its guard exactly when the depth of the guard, if the store
reaches it, is that of its own scope. -/
theorem actsOnOwnScope_iff {st : GuardState U} (h : Tracked st) (op : GuardOp U) :
    ActsOnOwnScope st op ↔ DepthIsOwn st op := by
  cases op with
  | drop i shared =>
    cases hi : st.guards[i]? with
    | none => simp only [ActsOnOwnScope, DepthIsOwn, hi]
    | some guard =>
      have hg := List.mem_of_getElem? hi
      cases guard with
      | attach guard scopes => simp only [ActsOnOwnScope, DepthIsOwn, hi]
      | scope id guard =>
        have hdepth : 1 < guard.expectedDepth := (h.guard id guard hg).1
        have hactive := h.matching (st.cell, st.scopes) List.mem_cons_self
        dsimp only at hactive
        cases hcell : st.cell with
        | none =>
          rw [hcell] at hactive
          have hout : id ∉ st.scopes := by
            rw [show st.scopes = [] from hactive]
            exact List.not_mem_nil
          simp only [ActsOnOwnScope, DepthIsOwn, hi, hcell, if_neg hout,
            Thread.scopeGuard_drop_none]
        | some s =>
          rw [hcell] at hactive
          obtain ⟨hwf, hlength⟩ := hactive
          simp only [ActsOnOwnScope, DepthIsOwn, hi, hcell, h.scope_at_depth hg, ne_eq]
          by_cases hmem : id ∈ st.scopes
          · have hown := h.idxOf_scope hg hmem
            have hlt : st.scopes.idxOf id < st.scopes.length := List.idxOf_lt_length_of_mem hmem
            have hreach : guard.expectedDepth ≤ s.depth := by omega
            have hcut := scopeGuard_drop_cutTo_iff hwf shared hdepth hreach
            rw [show guard.expectedDepth - 1 = st.scopes.idxOf id + 1 by omega] at hcut
            simpa [hmem, Nat.not_lt.mpr hreach] using hcut
          · simp [hmem, scopeGuard_drop_eq_self_iff hwf shared hdepth]
  | pushScope name => exact Iff.rfl
  | setContextVariable t key value => exact Iff.rfl
  | clear => exact Iff.rfl
  | attachStore store => exact Iff.rfl
  | attachSnapshot snap => exact Iff.rfl

/-- **Every run**: the drops of a run all act on the scopes of their guards exactly when, at each
of them, the depth of the guard is that of its own scope or is not reached. -/
theorem guards_act_on_own_scope_iff (g : Globals U) (initial : Option (RootStore U))
    (ops : List (GuardOp U)) :
    Along (step g) ActsOnOwnScope (start initial) ops ↔
      Along (step g) DepthIsOwn (start initial) ops :=
  along_congr (step_tracked g) (fun _ op h => actsOnOwnScope_iff h op) ops (start initial)
    (start_tracked initial)

/-- Two scopes are pushed, the outer one is dropped first, and two more are pushed: the guard of
the inner one then has the depth of the last. -/
def depthReused : List (GuardOp primitiveTypes) :=
  [.pushScope "a", .pushScope "b", .drop 0 fun _ => false, .pushScope "c", .pushScope "d",
    .drop 0 fun _ => false]

/-- The drop of the guard of `b` removes the scope `d`, whose guard is still held. -/
theorem depthReused_removes_other :
    ¬ Along (step (.withRegistry .empty)) ActsOnOwnScope (start (some .new)) depthReused ∧
      Thread.scopeChain (.withRegistry .empty)
        (run (step (.withRegistry .empty)) (start (some .new)) depthReused).1.cell = ["c"] := by
  refine ⟨?_, rfl⟩
  intro h
  have hlast : ActsOnOwnScope _ (.drop 0 fun _ => false) := h.2.2.2.2.2.1
  have hcell : (run (step (.withRegistry .empty)) (start (some (.new : RootStore primitiveTypes)))
      depthReused).1.cell.map ContextStore.depth = some 3 := congrArg (Option.map _) hlast
  exact absurd hcell (by decide)

/-! ## The pair of an attached store and its scope -/

/-- Dropping the pair that `attach_snapshot_with_scope` returns, as one value: its fields in
order. -/
def dropPair (shared : List (ScopeNode U) → Bool) (pair : AttachGuard U × ScopeGuard) : Cell U :=
  pair.2.drop shared pair.1.drop

/-- `attach_snapshot_with_scope(snap, name)`, what is done while the pair is held, such as the run
of a program, and the drop of the pair. -/
def pairBlock {α : Type} (g : Globals U) (snap : ContextSnapshot U) (name : String)
    (shared : List (ScopeNode U) → Bool) (work : Cell U → α × Cell U) (cell : Cell U) :
    α × Cell U :=
  let attached := Thread.attachSnapshotWithScope g snap name cell
  -- the drop of the attach guard replaces whatever the work leaves in the cell
  ((work attached.1).1, dropPair shared attached.2)

/-- The scope of the pair is the first one of the attached store. -/
theorem attachSnapshotWithScope_snd (g : Globals U) (snap : ContextSnapshot U) (name : String)
    (cell : Cell U) : (Thread.attachSnapshotWithScope g snap name cell).2 = (⟨cell⟩, ⟨2⟩) := by
  unfold Thread.attachSnapshotWithScope Thread.attachSnapshot Thread.attachStore
  simp only [Thread.pushScope_some]
  rfl

/-- **The pair restores the caller's context** exactly when the caller is in its root scope: the
scope guard is dropped on the caller's store. -/
theorem pair_restores_iff {α : Type} (g : Globals U) (snap : ContextSnapshot U) (name : String)
    (shared : List (ScopeNode U) → Bool) (work : Cell U → α × Cell U) {s : ContextStore U}
    (hs : s.Reachable) :
    (pairBlock g snap name shared work (some s)).2 = some s ↔ s.depth = 1 := by
  have hpos := hs.wellFormed.depth_pos
  have hblock : (pairBlock g snap name shared work (some s)).2 =
      (⟨2⟩ : ScopeGuard).drop shared (some s) := by
    simp only [pairBlock, dropPair, attachSnapshotWithScope_snd]
    rfl
  rw [hblock, scopeGuard_drop_eq_self_iff hs.wellFormed shared (by decide)]
  show s.depth < 2 ∨ 2 = usizeMax ↔ s.depth = 1
  unfold usizeMax
  omega

/-- The store of a caller that has inherited one value and set another, in no scope. -/
def rootCaller : ContextStore primitiveTypes :=
  (ContextStore.new.setValue "user" (u64Value 7)).forkChild.setValue "role" (u64Value 1)

/-- The caller gets its store back, whatever the block has set. -/
theorem pair_restores_rootCaller :
    (pairBlock (.withRegistry .empty) ⟨∅, ["gateway"]⟩ "inbound" (fun _ => false)
        (fun cell => ((), Thread.setContextVariable PrimitiveType.u64 "user" (8 : UInt64) cell))
        (some rootCaller)).2 = some rootCaller := by
  have hreach : rootCaller.Reachable :=
    (ContextStore.Reachable.new.setValue "user" (u64Value 7)).forkChild.setValue "role" (u64Value 1)
  exact (pair_restores_iff (.withRegistry .empty) ⟨∅, ["gateway"]⟩ "inbound" (fun _ => false) _
    hreach).mpr rfl

/-- The store of a caller in one scope. -/
def inRequest : ContextStore primitiveTypes :=
  (ContextStore.new.pushScope .empty (some "request")).1

/-- The caller's scope, whose guard nobody has dropped, is gone with the pair. -/
theorem pair_pops_caller :
    inRequest.Reachable ∧
      (pairBlock (.withRegistry .empty) .empty "inbound" (fun _ => false) (fun cell => ((), cell))
        (some inRequest)).2 = some .new ∧
      (pairBlock (.withRegistry .empty) .empty "inbound" (fun _ => false) (fun cell => ((), cell))
        (some inRequest)).2 ≠ some inRequest := by
  have hpopped : (pairBlock (.withRegistry .empty) .empty "inbound" (fun _ => false)
      (fun cell => ((), cell)) (some inRequest)).2 = some .new := rfl
  refine ⟨.pushScope _ _ .new, hpopped, ?_⟩
  rw [hpopped]
  intro heq
  have hdepth : (1 : Nat) = 2 := congrArg ContextStore.depth (Option.some.inj heq)
  exact absurd hdepth (by decide)

end Guards

end DContext
