import DContext.Overlay.Levels
import DContext.Store.Caching
import DContext.Thread.Names

/-!
# What programs can find out of a store

Two stores can be told apart by some program exactly when they differ in depth, or in what is read
at one of their levels, of the store or of a fork made there. No combination of pushes, merges,
attaches, nested forks, captures and guards finds out more, so that all else is free to change: how
the store is represented, and which scope a value shown is held by, as far as forks do not show it.

## Main definitions

* `ContextStore.Twin s s'`: the stacks the stores stand for are the same at every level
* `SameReads s s'`: the stores read the same at every level, and their forks there

## Main results

* `twin_iff_sameReads`: these are the same
* `step_twins`: one operation
* `indistinguishable_iff`: what programs can find out
-/

namespace DContext

open Overlay StepSystem

variable {U : TypeUniverse}

namespace ContextStore

/-- The stacks that the stores stand for are the same at every level. -/
def Twin (s s' : ContextStore U) : Prop :=
  ∃ (h : s.WellFormed) (h' : s'.WellFormed), (s.toStack h).Twin (s'.toStack h')

namespace Twin

variable {s s' : ContextStore U}

theorem refl (h : s.WellFormed) : Twin s s := ⟨h, h, .refl _⟩

theorem depth (h : Twin s s') : s.depth = s'.depth := by
  obtain ⟨_, _, h⟩ := h
  exact h.depth

theorem getValue (h : Twin s s') (key : Key) : s.getValue key = s'.getValue key := by
  obtain ⟨hs, hs', h⟩ := h
  rw [← toStack_lookup hs, ← toStack_lookup hs']
  exact h.lookup key

theorem collectValues (h : Twin s s') : s.collectValues = s'.collectValues := by
  apply Finmap.ext_lookup
  intro key
  rw [lookup_collectValues, lookup_collectValues]
  exact h.getValue key

theorem scopeChain (h : Twin s s') (maxLen : Nat) : s.scopeChain maxLen = s'.scopeChain maxLen := by
  obtain ⟨hs, hs', h⟩ := h
  rw [hs.scopeChain_eq, hs'.scopeChain_eq]
  exact h.names maxLen

theorem sameView (h : Twin s s') (maxLen : Nat) : SameView maxLen s s' :=
  ⟨h.getValue, h.collectValues, h.scopeChain maxLen⟩

theorem capture (h : Twin s s') (maxLen : Nat) (registry : Registry U) :
    captureWithRegistry maxLen s registry = captureWithRegistry maxLen s' registry := by
  unfold captureWithRegistry
  rw [h.collectValues, h.scopeChain]

theorem pushScope (h : Twin s s') (registry : Registry U) (name : Option String) :
    Twin (s.pushScope registry name).1 (s'.pushScope registry name).1 := by
  obtain ⟨hs, hs', h⟩ := h
  refine ⟨hs.pushScope registry name, hs'.pushScope registry name, ?_⟩
  rw [toStack_pushScope, toStack_pushScope]
  exact h.push _ name

theorem popScope (h : Twin s s') (shared : List (ScopeNode U) → Bool) (e : Nat) :
    Twin (s.popScope shared e).1 (s'.popScope shared e).1 := by
  obtain ⟨hs, hs', h⟩ := h
  refine ⟨hs.popScope shared e, hs'.popScope shared e, ?_⟩
  rw [toStack_popScope, toStack_popScope]
  exact h.pop e

theorem overwrite (h : Twin s s') (m : ValueMap U) : Twin (s.overwrite m) (s'.overwrite m) := by
  obtain ⟨hs, hs', h⟩ := h
  refine ⟨hs.withValues _, hs'.withValues _, ?_⟩
  rw [toStack_overwrite hs, toStack_overwrite hs']
  exact h.overwrite m

theorem setValue (h : Twin s s') (key : Key) (value : ContextValue U) :
    Twin (s.setValue key value) (s'.setValue key value) :=
  h.overwrite (Finmap.singleton key value)

theorem mergeWith (h : Twin s s') {source source' : ContextStore U}
    (hsource : Twin source source') : Twin (s.mergeWith source) (s'.mergeWith source') := by
  rw [mergeWith_eq_overwrite, mergeWith_eq_overwrite, hsource.collectValues]
  exact h.overwrite _

/-- **Forks**, whatever the forked stores inherit. -/
theorem forkChild (h : Twin s s') : Twin s.forkChild s'.forkChild := by
  obtain ⟨hs, hs', h⟩ := h
  refine ⟨hs.forkChild, hs'.forkChild, ?_⟩
  rw [toStack_forkChild hs, toStack_forkChild hs']
  exact h.fork

end Twin

/-- Which keys a push copies makes no difference to a store that inherits nothing. -/
theorem twin_pushScope {s : ContextStore U} (h : s.WellFormed) (hroot : s.frozenParent = [])
    (registry registry' : Registry U) (name : Option String) :
    Twin (s.pushScope registry name).1 (s.pushScope registry' name).1 := by
  have hinherited : (s.toStack h).inherited = [] := by
    show s.frozenParent.map ScopeNode.frame = []
    rw [hroot, List.map_nil]
  refine ⟨h.pushScope registry name, h.pushScope registry' name, ?_⟩
  rw [toStack_pushScope, toStack_pushScope]
  exact CappedStack.twin_push hinherited _ _ name

/-! ## Reading at every level -/

/-- The stores have the same depth and read the same at every level that a guard can go back to, and
so do their forks there. -/
structure SameReads (s s' : ContextStore U) : Prop where
  depth : s.depth = s'.depth
  levels : ∀ e, e ≠ usizeMax → ∀ shared,
    SameView 0 (s.popScope shared e).1 (s'.popScope shared e).1 ∧
      SameView 0 (s.popScope shared e).1.forkChild (s'.popScope shared e).1.forkChild

/-- The root has no name. -/
theorem Nested.root_unnamed {remote : List String} {base : Nat} {ns : List (ScopeNode U)} :
    ∀ {d : Nat} {name : Option String} (values : ValueMap U), Nested remote base d name ns →
      namesOf ((⟨name, values⟩ :: ns.map ScopeNode.frame).drop ns.length) = [] := by
  induction ns with
  | nil =>
    rintro d name values ⟨-, rfl⟩
    rfl
  | cons n parent ih => exact fun _ h => ih n.values h.2.2.2.2

theorem WellFormed.root_unnamed {s : ContextStore U} (h : s.WellFormed) :
    namesOf (s.ownFrames.drop (s.ownFrames.length - 1)) = [] := by
  have hlength : s.ownFrames.length - 1 = s.chain.length := by
    rw [ownFrames, List.length_cons, List.length_map, Nat.add_sub_cancel]
  rw [hlength]
  exact h.nested.root_unnamed s.currentValues

/-- **Stores are the same at every level** exactly when they read so. -/
theorem twin_iff_sameReads {s s' : ContextStore U} (h : s.WellFormed) (h' : s'.WellFormed) :
    s.Twin s' ↔ SameReads s s' := by
  constructor
  · intro htwin
    refine ⟨htwin.depth, fun e _ shared => ?_⟩
    have hpop := htwin.popScope shared e
    exact ⟨hpop.sameView 0, hpop.forkChild.sameView 0⟩
  · intro hreads
    have hview : ∀ {t t' : ContextStore U} (ht : t.WellFormed) (ht' : t'.WellFormed),
        SameView 0 t t' → (t.toStack ht).ReadAlike (t'.toStack ht') := by
      intro t t' ht ht' hsame
      refine ⟨fun key => ?_, ?_⟩
      · rw [toStack_lookup, toStack_lookup]
        exact hsame.getValue key
      · have hchain := hsame.scopeChain
        rwa [ht.scopeChain_eq, ht'.scopeChain_eq] at hchain
    refine ⟨h, h', CappedStack.twin_of_reads hreads.depth (fun e he => ?_) h.root_unnamed
      h'.root_unnamed⟩
    have hreal : e ≠ usizeMax := by
      unfold maxScopeDepth at he
      unfold usizeMax
      omega
    obtain ⟨hlevel, hfork⟩ := hreads.levels e hreal fun _ => true
    have hpop := h.popScope (fun _ => true) e
    have hpop' := h'.popScope (fun _ => true) e
    rw [← toStack_popScope h (fun _ => true), ← toStack_popScope h' (fun _ => true),
      ← toStack_forkChild, ← toStack_forkChild]
    exact ⟨hview hpop hpop' hlevel, hview hpop.forkChild hpop'.forkChild hfork⟩

end ContextStore

/-! ## Programs -/

namespace Transparency

open ContextStore

/-- Two cells whose stores are the same at every level. -/
abbrev TwinCells (cell cell' : Cell U) : Prop := Option.Rel Twin cell cell'

/-- Two states that hold stores that are the same at every level, place by place. -/
structure Twins (st st' : State U) : Prop where
  cell : TwinCells st.cell st'.cell
  stores : List.Forall₂ Twin st.stores st'.stores
  snapshots : st.snapshots = st'.snapshots
  guards : List.Forall₂ (fun guard guard' => TwinCells guard.prev guard'.prev) st.guards st'.guards

/-- Access to the stores in two such cells, by functions that keep stores the same. -/
theorem tryApply_twins {R : Type} {cell cell' : Cell U} (h : TwinCells cell cell')
    {f f' : ContextStore U → ContextStore U × R} (hf : ∀ s s', Twin s s' → Twin (f s).1 (f' s').1) :
    TwinCells (tryApply cell f).1 (tryApply cell' f').1 := by
  cases h with
  | none => exact .none
  | some h => exact .some (hf _ _ h)

theorem scopeGuard_drop_twins {cell cell' : Cell U} (h : TwinCells cell cell') (guard : ScopeGuard)
    (shared : List (ScopeNode U) → Bool) :
    TwinCells (guard.drop shared cell) (guard.drop shared cell') := by
  unfold ScopeGuard.drop leaveScope
  split_ifs
  · exact h
  · exact tryApply_twins h fun s s' hs => hs.popScope shared guard.expectedDepth

/-- **One operation** answers the same on stores that are the same at every level, and leaves such
stores. -/
theorem step_twins (g : Globals U) {st st' : State U} (h : Twins st st') (op : Op U) :
    Twins (step g st op).1 (step g st' op).1 ∧ (step g st op).2 = (step g st' op).2 := by
  obtain ⟨cell, stores, snapshots, guards⟩ := st
  obtain ⟨cell', stores', snapshots', guards'⟩ := st'
  have hsame := h
  obtain ⟨hcell, hstores, hsnapshots, hguards⟩ := h
  dsimp only at hcell hstores hsnapshots hguards
  subst hsnapshots
  cases op with
  | pushScope name =>
    have hpush : TwinCells (Thread.pushScope g name cell).1 (Thread.pushScope g name cell').1 :=
      tryApply_twins hcell fun s s' hs => hs.pushScope g.registry (some name)
    refine ⟨⟨hpush, hstores, rfl, hguards⟩, ?_⟩
    cases hcell with
    | none => rfl
    | some hs =>
      simp only [step, Thread.pushScope_some]
      rw [hs.depth]
  | dropScopeGuard guard shared =>
    exact ⟨⟨scopeGuard_drop_twins hcell guard shared, hstores, rfl, hguards⟩, rfl⟩
  | setContextVariable t key value =>
    have hset : TwinCells (Thread.setContextVariable t key value cell)
        (Thread.setContextVariable t key value cell') :=
      tryApply_twins hcell fun s s' hs => hs.setValue key ⟨t, value⟩
    exact ⟨⟨hset, hstores, rfl, hguards⟩, rfl⟩
  | mergeWith i =>
    rcases forall₂_getElem? hstores i with ⟨hi, hi'⟩ | ⟨source, source', hi, hi', hsource, hrest⟩
    · simp only [step, hi, hi']
      exact ⟨hsame, trivial⟩
    · have hmerge : TwinCells (Thread.mergeWith source cell) (Thread.mergeWith source' cell') :=
        tryApply_twins hcell fun s s' hs => hs.mergeWith hsource
      simp only [step, hi, hi']
      exact ⟨⟨hmerge, hrest, rfl, hguards⟩, trivial⟩
  | clear =>
    have hclear : TwinCells (Thread.clear cell) (Thread.clear cell') :=
      tryApply_twins hcell fun s s' hs => .refl WellFormed.new
    exact ⟨⟨hclear, hstores, rfl, hguards⟩, rfl⟩
  | fork =>
    have hfork : Twin (Thread.fork cell) (Thread.fork cell') := by
      cases hcell with
      | none => exact .refl WellFormed.new
      | some hs => exact hs.forkChild
    exact ⟨⟨hcell, List.rel_append hstores (.cons hfork .nil), rfl, hguards⟩, rfl⟩
  | attachStore i =>
    rcases forall₂_getElem? hstores i with ⟨hi, hi'⟩ | ⟨store, store', hi, hi', hstore, hrest⟩
    · simp only [step, hi, hi']
      exact ⟨hsame, trivial⟩
    · simp only [step, hi, hi']
      exact ⟨⟨.some hstore, hrest, rfl, List.rel_append hguards (.cons hcell .nil)⟩, trivial⟩
  | capture =>
    have hcapture : Thread.capture g cell = Thread.capture g cell' := by
      cases hcell with
      | none => rfl
      | some hs => exact hs.capture g.maxScopeChainLen g.registry
    refine ⟨⟨hcell, hstores, ?_, hguards⟩, congrArg Reply.snapshot hcapture⟩
    exact congrArg (fun snap => snapshots ++ [snap]) hcapture
  | receive snap => exact ⟨⟨hcell, hstores, rfl, hguards⟩, rfl⟩
  | attachSnapshot i =>
    cases hi : snapshots[i]? with
    | none =>
      simp only [step, hi]
      exact ⟨hsame, trivial⟩
    | some snap =>
      have hstore := Twin.refl (storeFromSnapshot_reachable snap g.registry).wellFormed
      simp only [step, hi]
      exact ⟨⟨.some hstore, hstores, rfl, List.rel_append hguards (.cons hcell .nil)⟩, trivial⟩
  | convert i =>
    cases hi : snapshots[i]? with
    | none =>
      simp only [step, hi]
      exact ⟨hsame, trivial⟩
    | some snap =>
      have hstore := Twin.refl (storeFromSnapshot_reachable snap g.registry).wellFormed
      simp only [step, hi]
      exact ⟨⟨hcell, List.rel_append hstores (.cons hstore .nil), rfl, hguards⟩, trivial⟩
  | dropAttachGuard i =>
    rcases forall₂_getElem? hguards i with ⟨hi, hi'⟩ | ⟨guard, guard', hi, hi', hguard, hrest⟩
    · simp only [step, hi, hi']
      exact ⟨hsame, trivial⟩
    · simp only [step, hi, hi']
      exact ⟨⟨hguard, hstores, rfl, hrest⟩, trivial⟩
  | getValue key =>
    refine ⟨hsame, ?_⟩
    cases hcell with
    | none => rfl
    | some hs => exact congrArg Reply.value (hs.getValue key)
  | collectValues =>
    refine ⟨hsame, ?_⟩
    cases hcell with
    | none => rfl
    | some hs => exact congrArg Reply.values hs.collectValues
  | scopeChain =>
    refine ⟨hsame, ?_⟩
    cases hcell with
    | none => rfl
    | some hs => exact congrArg Reply.names (hs.scopeChain g.maxScopeChainLen)

theorem limitedReplies_twins (g : Globals U) {s s' : ContextStore U} (h : s.Twin s')
    (steps : List (Nat × Op U)) : limitedReplies g s steps = limitedReplies g s' steps := by
  have hrun : ∀ st st' : State U, Twins st st' →
      (run (limitedStep g) st steps).2 = (run (limitedStep g) st' steps).2 := by
    induction steps with
    | nil => exact fun st st' _ => rfl
    | cons p steps ih =>
      intro st st' hst
      have hstep : Twins (limitedStep g st p).1 (limitedStep g st' p).1 ∧
          (limitedStep g st p).2 = (limitedStep g st' p).2 := step_twins _ hst p.2
      rw [run_cons, run_cons, ih _ _ hstep.1, hstep.2]
  exact hrun _ _ ⟨.some h, .nil, rfl, .nil⟩

/-! ## Telling stores apart -/

/-- The reply to one operation in a state, with no limit on scope chains. -/
def replyTo (g : Globals U) (st : State U) (op : Op U) : Reply U :=
  (limitedStep g st (0, op)).2

/-- Stores that answer all operations the same read the same. -/
theorem sameView_of_replies {g : Globals U} {st st' : State U} {s s' : ContextStore U}
    (hcell : st.cell = some s) (hcell' : st'.cell = some s')
    (h : ∀ op, replyTo g st op = replyTo g st' op) : SameView 0 s s' := by
  obtain ⟨cell, stores, snapshots, guards⟩ := st
  obtain ⟨cell', stores', snapshots', guards'⟩ := st'
  dsimp only at hcell hcell'
  subst hcell hcell'
  refine ⟨fun key => ?_, ?_, ?_⟩
  · exact Reply.value.inj (h (.getValue key))
  · exact Reply.values.inj (h .collectValues)
  · exact Reply.names.inj (h .scopeChain)

/-- A program that goes back to a level. -/
def toLevel (e : Nat) (shared : List (ScopeNode U) → Bool) : List (Nat × Op U) :=
  [(0, .dropScopeGuard ⟨e⟩ shared)]

/-- A program that goes back to a level and attaches a fork made there. -/
def toFork (e : Nat) (shared : List (ScopeNode U) → Bool) : List (Nat × Op U) :=
  toLevel e shared ++ [(0, .fork), (0, .attachStore 0)]

theorem run_toLevel (g : Globals U) (s : ContextStore U) {e : Nat} (he : e ≠ usizeMax)
    (shared : List (ScopeNode U) → Bool) :
    (run (limitedStep g) (start s) (toLevel e shared)).1 = start (s.popScope shared e).1 := by
  have hdrop : (⟨e⟩ : ScopeGuard).drop shared (some s) = some (s.popScope shared e).1 := if_neg he
  simp only [toLevel, run_cons, run_nil, limitedStep, step, start, hdrop]

theorem run_toFork (g : Globals U) (s : ContextStore U) {e : Nat} (he : e ≠ usizeMax)
    (shared : List (ScopeNode U) → Bool) :
    (run (limitedStep g) (start s) (toFork e shared)).1.cell =
      some (s.popScope shared e).1.forkChild := by
  rw [toFork, run_append, run_toLevel g s he]
  rfl

/-- Stores that no program tells apart answer all operations the same wherever a program has
got. -/
theorem replyTo_of_replies {g : Globals U} {s s' : ContextStore U}
    (h : ∀ steps, limitedReplies g s steps = limitedReplies g s' steps) (steps : List (Nat × Op U))
    (op : Op U) : replyTo g (run (limitedStep g) (start s) steps).1 op =
      replyTo g (run (limitedStep g) (start s') steps).1 op := by
  have hbefore := h steps
  have hafter := h (steps ++ [(0, op)])
  unfold limitedReplies at hbefore hafter
  rw [run_replies_append, run_replies_append, hbefore, List.append_cancel_left_eq] at hafter
  exact (List.cons.inj hafter).1

/-- **What programs can find out.** Two reachable stores answer every program the same, with any
changes of the limit on scope chains, exactly when they have the same depth and read the same at
every level, and so do the forks made there. -/
theorem indistinguishable_iff (g : Globals U) {s s' : ContextStore U} (hs : s.Reachable)
    (hs' : s'.Reachable) :
    (∀ steps, limitedReplies g s steps = limitedReplies g s' steps) ↔ SameReads s s' := by
  constructor
  · intro h
    refine ⟨?_, fun e he shared => ⟨?_, ?_⟩⟩
    · have hguard := replyTo_of_replies h [] (.pushScope "")
      simpa [replyTo, limitedStep, step, start] using hguard
    · refine sameView_of_replies (g := g) ?_ ?_ (replyTo_of_replies h (toLevel e shared))
      · rw [run_toLevel g s he]
        rfl
      · rw [run_toLevel g s' he]
        rfl
    · exact sameView_of_replies (run_toFork g s he shared) (run_toFork g s' he shared)
        (replyTo_of_replies h (toFork e shared))
  · intro h steps
    exact limitedReplies_twins g ((twin_iff_sameReads hs.wellFormed hs'.wellFormed).mpr h) steps

/-- A store with a number, in a scope that holds a copy of it or none. -/
def withCopy (calls : List (OptionCall primitiveTypes PrimitiveType.u64)) :
    ContextStore primitiveTypes :=
  ((ContextStore.new.setValue "user" (u64Value 7)).pushScope (oneNumberRegistry calls)
    (some "inner")).1

theorem withCopy_reachable (calls : List (OptionCall primitiveTypes PrimitiveType.u64)) :
    (withCopy calls).Reachable :=
  (Reachable.new.setValue "user" (u64Value 7)).pushScope (oneNumberRegistry calls) (some "inner")

/-- No program finds out whether the copy is there. -/
theorem indistinguishable_iff_copies :
    "user" ∈ (withCopy [.cached]).currentValues ∧ "user" ∉ (withCopy []).currentValues ∧
      ∀ steps, limitedReplies (.withRegistry .empty) (withCopy [.cached]) steps =
        limitedReplies (.withRegistry .empty) (withCopy []) steps := by
  have htwin : (withCopy [.cached]).Twin (withCopy []) :=
    twin_pushScope (WellFormed.new.setValue "user" (u64Value 7)) rfl _ _ _
  refine ⟨by decide, by decide, (indistinguishable_iff _ (withCopy_reachable [.cached])
    (withCopy_reachable [])).mpr ?_⟩
  exact (twin_iff_sameReads (withCopy_reachable [.cached]).wellFormed
    (withCopy_reachable []).wellFormed).mp htwin

end Transparency

end DContext
