import DContext.Thread.Programs
import DContext.Wire.RoundTrip
import DContext.System.Run

/-!
# The scope chain is the end of the call path

The call path of a thread is the list of all names pushed on the way to where it is. It is kept
beside the state here: a named push appends to it, the drop of its guard takes the name away, and
a hop into an attached store leaves it as it is. The store knows the path only through the chain
of its snapshot, cut to the limit at each hop, and the names of its own scopes.

## Main definitions

* `Guard U`, `State U`, `Op U`, `step`: one thread, its guards, and its call path
* `PushesWithin`: no store gets more than the maximum number of real scopes
* `Nest g s path guards`: the store, the path and the guards that pushes and hops lead to

## Main results

* `scopeChain_deserialize`: a snapshot keeps its scope chain on the wire
* `Nest.scopeChain_eq`: a nested store shows the end of its path
* `step_nested`: every operation keeps store, path and guards together
* `scopeChain_eq_path`: the scope chain is the end of the call path, in every run
-/

namespace DContext

open ByteFormat Overlay StepSystem

variable {U : TypeUniverse}

namespace CallPath

/-! ## One thread with its call path -/

/-- A guard not yet dropped; a scope guard with the name of its push. -/
inductive Guard (U : TypeUniverse)
  | scope (guard : ScopeGuard) (name : Option String)
  | attach (guard : AttachGuard U)

/-- One thread: its cell, its guards, newest first, and its call path. -/
structure State (U : TypeUniverse) where
  cell : Cell U
  guards : List (Guard U)
  path : List String

/-- What a program does on the thread; a drop is one of the newest guard. -/
inductive Op (U : TypeUniverse)
  | pushScope (name : Option String)
  | setContextVariable (t : U.TypeId) (key : Key) (value : U.El t)
  /-- `attach_snapshot(capture())`. -/
  | hop
  /-- `attach_from_bytes` of `capture_serialized()`. -/
  | hopSerialized (iter : IterationOrder U)
  | drop (shared : List (ScopeNode U) → Bool)

/-- `push_scope(name)`, and the push without a name that the crate keeps to itself. -/
def pushScope (g : Globals U) (name : Option String) (cell : Cell U) : Cell U × ScopeGuard :=
  let r := tryApply cell fun store => store.pushScope g.registry name
  (r.1, (r.2.map .mk).getD .noop)

/-- The state after an attach that has left this cell and this guard. -/
def attached (r : Cell U × AttachGuard U) (st : State U) : State U :=
  { st with cell := r.1, guards := .attach r.2 :: st.guards }

/-- A hop over the wire; when either way fails nothing is attached. -/
def hopSerialized (g : Globals U) (iter : IterationOrder U) (st : State U) : State U :=
  match Thread.captureSerialized g iter st.cell with
  | .error _ => st
  | .ok bytes =>
    -- the length of a `Vec<u8>` is a `usize`
    if bytes.length < 2 ^ 64 then
      match Thread.attachFromBytes g bytes st.cell with
      | .error _ => st
      | .ok r => attached r st
    else st

def step (g : Globals U) (st : State U) : Op U → State U × Unit
  | .pushScope name =>
    let r := pushScope g name st.cell
    ({ cell := r.1
       guards := .scope r.2 name :: st.guards
       path := st.path ++ name.toList }, ())
  | .setContextVariable t key value =>
    ({ st with cell := Thread.setContextVariable t key value st.cell }, ())
  | .hop => (attached (Thread.attachSnapshot g (Thread.capture g st.cell) st.cell) st, ())
  | .hopSerialized iter => (hopSerialized g iter st, ())
  | .drop shared =>
    match st.guards with
    | [] => (st, ())
    | .scope guard name :: guards =>
      ({ cell := guard.drop shared st.cell
         guards := guards
         path := st.path.rdrop name.toList.length }, ())
    | .attach guard :: guards => ({ st with cell := guard.drop, guards := guards }, ())

/-- A thread with the default store. -/
def start : State U where
  cell := some .new
  guards := []
  path := []

/-- No store gets more than the maximum number of real scopes. -/
def PushesWithin (st : State U) : Op U → Prop
  | .pushScope _ => ∀ s ∈ st.cell, s.depth ≤ maxScopeDepth
  | _ => True

theorem pushScope_eq_thread (g : Globals U) (name : String) (cell : Cell U) :
    pushScope g (some name) cell = Thread.pushScope g name cell := rfl

theorem pushScope_of_some (g : Globals U) (name : Option String) (s : ContextStore U) :
    pushScope g name (some s) = (some (s.pushScope g.registry name).1, ⟨s.depth + 1⟩) := by
  simp only [pushScope, tryApply_some, Option.map_some, Option.getD_some]
  rw [ContextStore.pushScope_snd]

/-! ## Stores, paths and guards together -/

/-- A snapshot keeps its scope chain on the wire. -/
theorem scopeChain_deserialize {g : Globals U} {iter : IterationOrder U}
    {snap snap' : ContextSnapshot U} {bytes : Bytes} (hwrite : snap.serialize g iter = .ok bytes)
    (hsize : bytes.length < 2 ^ 64) (hread : ContextSnapshot.deserialize g bytes = .ok snap') :
    snap'.scopeChain = snap.scopeChain := by
  obtain ⟨entries, -, rfl, -⟩ := serializeFrom_eq_ok_iff.mp hwrite
  unfold ContextSnapshot.deserialize deserializeToSnapshot at hread
  rw [deserializeWire_write hsize (.inr rfl)] at hread
  dsimp only at hread
  cases hentries : deserializeEntries g.registry entries ∅ with
  | error e =>
    rw [hentries] at hread
    cases hread
  | ok values =>
    rw [hentries] at hread
    obtain rfl := Except.ok.inj hread
    rfl

/-- The store that a call path leads to, with the guards on the way: from the default store by
pushes, each within the limit, and by hops, the values of the active scope being whatever was
written there. -/
inductive Nest (g : Globals U) : ContextStore U → List String → List (Guard U) → Prop
  | start (values : ValueMap U) : Nest g { ContextStore.new with currentValues := values } [] []
  | push {s : ContextStore U} {path : List String} {guards : List (Guard U)}
      (name : Option String) (values : ValueMap U) :
      Nest g s path guards → s.depth ≤ maxScopeDepth →
      Nest g { (s.pushScope g.registry name).1 with currentValues := values }
        (path ++ name.toList) (.scope ⟨s.depth + 1⟩ name :: guards)
  | hop {s : ContextStore U} {path : List String} {guards : List (Guard U)}
      (snap : ContextSnapshot U) (values : ValueMap U) :
      Nest g s path guards → snap.scopeChain = s.scopeChain g.maxScopeChainLen →
      Nest g { storeFromSnapshotWithRegistry snap g.registry with currentValues := values }
        path (.attach ⟨some s⟩ :: guards)

variable {g : Globals U}

theorem Nest.withValues {s : ContextStore U} {path : List String} {guards : List (Guard U)}
    (h : Nest g s path guards) (values : ValueMap U) :
    Nest g { s with currentValues := values } path guards := by
  cases h with
  | start => exact .start values
  | push name _ h hdepth => exact .push name values h hdepth
  | hop snap _ h hchain => exact .hop snap values h hchain

theorem Nest.wellFormed {s : ContextStore U} {path : List String} {guards : List (Guard U)}
    (h : Nest g s path guards) : s.WellFormed := by
  induction h with
  | start values => exact ContextStore.WellFormed.new.withValues values
  | push name values _ _ ih => exact (ih.pushScope g.registry name).withValues values
  | hop snap values _ _ _ =>
    exact (storeFromSnapshot_reachable snap g.registry).wellFormed.withValues values

/-- The values of the active scope are not read for the scope chain. -/
theorem scopeChain_withValues (s : ContextStore U) (values : ValueMap U) (maxLen : Nat) :
    { s with currentValues := values }.scopeChain maxLen = s.scopeChain maxLen := rfl

/-- **A nested store shows the end of its path.** The induction is on the path: a push appends its
name to a chain cut already, and a hop cuts again what was cut before. -/
theorem Nest.scopeChain_eq {s : ContextStore U} {path : List String} {guards : List (Guard U)}
    (h : Nest g s path guards) :
    s.scopeChain g.maxScopeChainLen = keepLast g.maxScopeChainLen path := by
  induction h with
  | start values =>
    rw [scopeChain_withValues, ContextStore.WellFormed.new.scopeChain_eq]
    rfl
  | push name values h hdepth ih =>
    rw [scopeChain_withValues, h.wellFormed.scopeChain_pushScope g.registry name hdepth, ih,
      keepLast_append_keepLast]
  | hop snap values h hchain ih =>
    rw [scopeChain_withValues, scopeChain_storeFromSnapshot, hchain, ih, keepLast_keepLast]

/-- The state is that of a nest. -/
def Nested (g : Globals U) (st : State U) : Prop :=
  ∃ s, st.cell = some s ∧ Nest g s st.path st.guards

theorem start_nested : Nested g (start : State U) := ⟨.new, rfl, .start ∅⟩

/-- Dropping the guard of a push leads back to the store it was made on. -/
theorem Nest.drop_scope {s : ContextStore U} {path : List String} {guards : List (Guard U)}
    (h : Nest g s path guards) (name : Option String) (values : ValueMap U)
    (hdepth : s.depth ≤ maxScopeDepth) (shared : List (ScopeNode U) → Bool) :
    (⟨s.depth + 1⟩ : ScopeGuard).drop shared
        (some { (s.pushScope g.registry name).1 with currentValues := values }) = some s := by
  have hreal : ¬ s.depth + 1 = usizeMax := by
    unfold maxScopeDepth at hdepth
    unfold usizeMax
    omega
  rw [Thread.scopeGuard_drop, if_neg hreal]
  exact congrArg some (ContextStore.TopOnly.popScope_of_le h.wellFormed g.registry name hdepth
    (.withValues _ values) shared)

/-- **Every operation** keeps store, path and guards together. -/
theorem step_nested (st : State U) (op : Op U) (h : Nested g st) (hop : PushesWithin st op) :
    Nested g (step g st op).1 := by
  obtain ⟨cell, guards, path⟩ := st
  obtain ⟨s, hcell, hnest⟩ := h
  dsimp only at hcell hnest
  subst hcell
  cases op with
  | pushScope name =>
    have hdepth : s.depth ≤ maxScopeDepth := hop s rfl
    simp only [step, pushScope_of_some]
    exact ⟨_, rfl, .push name (s.pushScope g.registry name).1.currentValues hnest hdepth⟩
  | setContextVariable t key value =>
    exact ⟨_, rfl, hnest.withValues (s.currentValues.insert key ⟨t, value⟩)⟩
  | hop =>
    have hcapture : (Thread.capture g (some s)).scopeChain = s.scopeChain g.maxScopeChainLen := rfl
    exact ⟨_, rfl, .hop (Thread.capture g (some s)) _ hnest hcapture⟩
  | hopSerialized iter =>
    show Nested g (hopSerialized g iter ⟨some s, guards, path⟩)
    unfold hopSerialized Thread.attachFromBytes
    cases hwrite : Thread.captureSerialized g iter (some s) with
    | error e => exact ⟨s, rfl, hnest⟩
    | ok bytes =>
      dsimp only
      split_ifs with hsize
      · cases hread : ContextSnapshot.deserialize g bytes with
        | error e => exact ⟨s, rfl, hnest⟩
        | ok snap =>
          have hchain : snap.scopeChain = s.scopeChain g.maxScopeChainLen :=
            scopeChain_deserialize hwrite hsize hread
          exact ⟨_, rfl, .hop snap _ hnest hchain⟩
      · exact ⟨s, rfl, hnest⟩
  | drop shared =>
    cases hnest with
    | start values => exact ⟨_, rfl, .start values⟩
    | push name values h hdepth =>
      simp only [step, h.drop_scope name values hdepth shared, List.rdrop_append_length]
      exact ⟨_, rfl, h⟩
    | hop snap values h hchain => exact ⟨_, rfl, h⟩

/-- **The scope chain is the end of the call path**: in every run of pushes with and without names,
writes, hops and drops of the newest guard, from a thread with the default store, no store getting
more than the maximum number of real scopes. Cutting at each hop loses no name that a single cut
at the end would keep. -/
theorem scopeChain_eq_path (g : Globals U) (ops : List (Op U))
    (hops : Along (step g) PushesWithin start ops) :
    Thread.scopeChain g (run (step g) start ops).1.cell =
      keepLast g.maxScopeChainLen (run (step g) start ops).1.path := by
  obtain ⟨s, hcell, hnest⟩ := run_along step_nested ops start (start_nested (g := g)) hops
  rw [hcell]
  exact hnest.scopeChain_eq

/-- Two names, a hop, and a third name, with room for two. -/
theorem scopeChain_eq_path_number :
    Thread.scopeChain ⟨Registry.empty, 0, 2⟩
        (run (step ⟨Registry.empty, 0, 2⟩) (start : State primitiveTypes)
          [.pushScope (some "a"), .pushScope (some "b"), .hop, .pushScope (some "c")]).1.cell =
      ["b", "c"] := by
  refine (scopeChain_eq_path ⟨Registry.empty, 0, 2⟩
    [.pushScope (some "a"), .pushScope (some "b"), .hop, .pushScope (some "c")] ?_).trans rfl
  refine ⟨?_, ?_, trivial, ?_, trivial⟩
  · rintro s ⟨⟩
    decide
  · rintro s ⟨⟩
    decide
  · rintro s ⟨⟩
    decide

end CallPath

end DContext
