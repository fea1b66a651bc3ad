import DContext.Store.Names
import DContext.Thread.Transparency

/-!
# Whether names show

One thread runs a program twice, the second time with all names changed: those of the scopes it
pushes, and those in the stores and snapshots it starts from or receives. It answers the same, with
the names in scope chains changed. So no value, no depth and no guard depends on a name.

Renaming is such a change, even by a function that makes names equal. Another one is to forget names
from elsewhere, and this is all that a change of the limit on scope chains comes to, which any code
can make at any time.

## Main definitions

* `State.mapNames`, `Op.mapNames`, `Reply.mapNames`: the names changed in all that there is
* `limitedStep`: an operation at the time of some limit

## Main results

* `step_mapNames`: one operation
* `names_only_carried`: a program with its names renamed
* `limits_only_trim`: a program while the limit changes
-/

namespace DContext

open Overlay StepSystem

variable {U : TypeUniverse}

namespace Transparency

section MapNames

variable (ν : NameMap)

/-- A guard that puts back the cell with its names changed. -/
def mapNamesGuard (guard : AttachGuard U) : AttachGuard U :=
  ⟨guard.prev.map (ContextStore.mapNames ν)⟩

/-- The state with its names changed, in the cell and in all that the program holds. -/
def State.mapNames (st : State U) : State U where
  cell := st.cell.map (ContextStore.mapNames ν)
  stores := st.stores.map (ContextStore.mapNames ν)
  snapshots := st.snapshots.map (ContextSnapshot.mapNames ν)
  guards := st.guards.map (mapNamesGuard ν)

/-- The operation with its names changed. A name that would be left out stays, for a program pushes
no scope without a name. -/
def Op.mapNames : Op U → Op U
  | .pushScope name => .pushScope ((ν.name name).getD name)
  | .receive snap => .receive (snap.mapNames ν)
  | op => op

/-- The answer with its names changed. -/
def Reply.mapNames : Reply U → Reply U
  | .names ns => .names (ν.chain ns)
  | .snapshot snap => .snapshot (snap.mapNames ν)
  | reply => reply

variable {ν}

/-- Access to the store in a cell whose names are changed, by functions that carry them. -/
theorem tryApply_mapNames {R : Type} {read read' : ContextStore U → ContextStore U × R}
    (h : ∀ s : ContextStore U, (read' (s.mapNames ν)).1 = (read s).1.mapNames ν) (cell : Cell U) :
    (tryApply (cell.map (ContextStore.mapNames ν)) read').1 =
      (tryApply cell read).1.map (ContextStore.mapNames ν) := by
  cases cell with
  | none => rfl
  | some s => exact congrArg some (h s)

theorem scopeGuard_drop_mapNames (guard : ScopeGuard) (shared : List (ScopeNode U) → Bool)
    (cell : Cell U) :
    guard.drop shared (cell.map (ContextStore.mapNames ν)) =
      (guard.drop shared cell).map (ContextStore.mapNames ν) := by
  unfold ScopeGuard.drop leaveScope
  split_ifs
  · rfl
  · exact tryApply_mapNames (fun s => ContextStore.popScope_mapNames _ shared shared _ s) cell

theorem fork_mapNames (cell : Cell U) :
    Thread.fork (cell.map (ContextStore.mapNames ν)) = (Thread.fork cell).mapNames ν := by
  cases cell with
  | none => exact (ContextStore.mapNames_new ν).symm
  | some s => exact ContextStore.forkChild_mapNames ν s

section Globals

variable {g g' : Globals U}

theorem pushScope_mapNames (hregistry : g'.registry = g.registry) {name : String}
    (hname : (ν.name name).isSome) (cell : Cell U) :
    Thread.pushScope g' ((ν.name name).getD name) (cell.map (ContextStore.mapNames ν)) =
      ((Thread.pushScope g name cell).1.map (ContextStore.mapNames ν),
        (Thread.pushScope g name cell).2) := by
  cases cell with
  | none => rfl
  | some s =>
    obtain ⟨name', hname⟩ := Option.isSome_iff_exists.mp hname
    have hpush := ContextStore.pushScope_mapNames ν g.registry (some name) s
    rw [Option.bind_some, hname] at hpush
    rw [Option.map_some, Thread.pushScope_some, Thread.pushScope_some, Option.map_some, hname,
      hregistry]
    exact Prod.ext (congrArg (some ·.1) hpush) rfl

theorem capture_mapNames (hregistry : g'.registry = g.registry)
    (hlimit : ν.Carries g.maxScopeChainLen g'.maxScopeChainLen) (cell : Cell U) :
    Thread.capture g' (cell.map (ContextStore.mapNames ν)) =
      (Thread.capture g cell).mapNames ν := by
  cases cell with
  | none => exact congrArg _ ν.nil.symm
  | some s =>
    have hcapture := captureWithRegistry_mapNames hlimit s g.registry
    show captureWithRegistry g'.maxScopeChainLen (s.mapNames ν) g'.registry = _
    rw [hregistry]
    exact hcapture

theorem scopeChain_mapNames (hlimit : ν.Carries g.maxScopeChainLen g'.maxScopeChainLen)
    (cell : Cell U) :
    Thread.scopeChain g' (cell.map (ContextStore.mapNames ν)) =
      ν.chain (Thread.scopeChain g cell) := by
  cases cell with
  | none => exact ν.nil.symm
  | some s => exact ContextStore.scopeChain_mapNames hlimit s

/-- **One operation** with its names changed, from a state with its names changed. -/
theorem step_mapNames (g g' : Globals U) (hregistry : g'.registry = g.registry)
    (hlimit : ν.Carries g.maxScopeChainLen g'.maxScopeChainLen)
    (hname : ∀ name, (ν.name name).isSome) (st : State U) (op : Op U) :
    step g' (st.mapNames ν) (op.mapNames ν) =
      ((step g st op).1.mapNames ν, (step g st op).2.mapNames ν) := by
  obtain ⟨cell, stores, snapshots, guards⟩ := st
  cases op with
  | pushScope name =>
    simp only [step, Op.mapNames, State.mapNames, pushScope_mapNames hregistry (hname name),
      Reply.mapNames]
  | dropScopeGuard guard shared =>
    simp only [step, Op.mapNames, State.mapNames, scopeGuard_drop_mapNames, Reply.mapNames]
  | setContextVariable t key value =>
    have hset : Thread.setContextVariable t key value
        (cell.map (ContextStore.mapNames ν)) =
        (Thread.setContextVariable t key value cell).map (ContextStore.mapNames ν) :=
      tryApply_mapNames (ContextStore.setValue_mapNames ν key ⟨t, value⟩) cell
    simp only [step, Op.mapNames, State.mapNames, hset, Reply.mapNames]
  | mergeWith i =>
    cases hi : stores[i]? with
    | none => simp [step, Op.mapNames, State.mapNames, Reply.mapNames, hi]
    | some source =>
      have hmerge : Thread.mergeWith (source.mapNames ν)
          (cell.map (ContextStore.mapNames ν)) =
          (Thread.mergeWith source cell).map (ContextStore.mapNames ν) :=
        tryApply_mapNames (fun s => ContextStore.mergeWith_mapNames _ s source) cell
      simp [step, Op.mapNames, State.mapNames, Reply.mapNames, hi, hmerge, List.eraseIdx_map]
  | clear =>
    have hclear : Thread.clear (cell.map (ContextStore.mapNames ν)) =
        (Thread.clear cell).map (ContextStore.mapNames ν) :=
      tryApply_mapNames (fun s => (ContextStore.mapNames_new ν).symm) cell
    simp only [step, Op.mapNames, State.mapNames, hclear, Reply.mapNames]
  | fork => simp [step, Op.mapNames, State.mapNames, fork_mapNames, Reply.mapNames]
  | attachStore i =>
    cases hi : stores[i]? with
    | none => simp [step, Op.mapNames, State.mapNames, Reply.mapNames, hi]
    | some store =>
      simp [step, Op.mapNames, State.mapNames, Reply.mapNames, hi, attached, Thread.attachStore,
        List.eraseIdx_map, mapNamesGuard]
  | capture =>
    simp [step, Op.mapNames, State.mapNames, capture_mapNames hregistry hlimit, Reply.mapNames]
  | receive snap => simp [step, Op.mapNames, State.mapNames, Reply.mapNames]
  | attachSnapshot i =>
    cases hi : snapshots[i]? with
    | none => simp [step, Op.mapNames, State.mapNames, Reply.mapNames, hi]
    | some snap =>
      simp [step, Op.mapNames, State.mapNames, Reply.mapNames, hi, attached, Thread.attachSnapshot,
        Thread.attachStore, storeFromSnapshot_mapNames, mapNamesGuard, hregistry]
  | convert i =>
    cases hi : snapshots[i]? with
    | none => simp [step, Op.mapNames, State.mapNames, Reply.mapNames, hi]
    | some snap =>
      simp [step, Op.mapNames, State.mapNames, Reply.mapNames, hi, storeFromSnapshot_mapNames,
        hregistry]
  | dropAttachGuard i =>
    cases hi : guards[i]? with
    | none => simp [step, Op.mapNames, State.mapNames, Reply.mapNames, hi]
    | some guard =>
      simp [step, Op.mapNames, State.mapNames, Reply.mapNames, hi, AttachGuard.drop, mapNamesGuard,
        List.eraseIdx_map]
  | getValue key =>
    cases cell <;> simp [step, Op.mapNames, State.mapNames, Reply.mapNames]
  | collectValues =>
    cases cell <;> simp [step, Op.mapNames, State.mapNames, Reply.mapNames]
  | scopeChain =>
    simp only [step, Op.mapNames, State.mapNames, scopeChain_mapNames hlimit, Reply.mapNames]

end Globals

end MapNames

/-! ## Runs -/

/-- An operation at the time of some limit on scope chains: `set_max_scope_chain_len` can be called
between any two operations, on any thread. -/
def limitedStep (g : Globals U) (st : State U) (p : Nat × Op U) : State U × Reply U :=
  step { g with maxScopeChainLen := p.1 } st p.2

/-- The replies of a program started on `s₀` while the limit changes. -/
def limitedReplies (g : Globals U) (s₀ : ContextStore U) (steps : List (Nat × Op U)) :
    List (Reply U) :=
  (run (limitedStep g) (start s₀) steps).2

theorem limitedReplies_mapNames (g : Globals U) {ν : NameMap}
    (hname : ∀ name, (ν.name name).isSome) (limit' : Nat → Nat) (steps : List (Nat × Op U))
    (hlimit : ∀ p ∈ steps, ν.Carries p.1 (limit' p.1)) (s₀ : ContextStore U) :
    limitedReplies g (s₀.mapNames ν) (steps.map (Prod.map limit' (Op.mapNames ν))) =
      (limitedReplies g s₀ steps).map (Reply.mapNames ν) := by
  have hrun : ∀ st : State U,
      (run (limitedStep g) (st.mapNames ν) (steps.map (Prod.map limit' (Op.mapNames ν)))).2 =
        (run (limitedStep g) st steps).2.map (Reply.mapNames ν) := by
    induction steps with
    | nil => exact fun st => rfl
    | cons p steps ih =>
      obtain ⟨hfirst, hrest⟩ := List.forall_mem_cons.mp hlimit
      intro st
      have hstep : limitedStep g (st.mapNames ν) (Prod.map limit' (Op.mapNames ν) p) =
          ((limitedStep g st p).1.mapNames ν, (limitedStep g st p).2.mapNames ν) :=
        step_mapNames { g with maxScopeChainLen := p.1 }
          { g with maxScopeChainLen := limit' p.1 } rfl hfirst hname st p.2
      rw [List.map_cons, run_cons, hstep, ih hrest, run_cons, List.map_cons]
  exact hrun (start s₀)

/-- **Names are only carried.** A program whose names are renamed by any function, started on a
store whose names are renamed, answers in every operation what it answers without, with the names in
scope chains and snapshots renamed and nothing else. -/
theorem names_only_carried (g : Globals U) (f : String → String) (s₀ : ContextStore U)
    (steps : List (Nat × Op U)) :
    limitedReplies g (s₀.mapNames (.rename f)) (steps.map (Prod.map id (Op.mapNames (.rename f)))) =
      (limitedReplies g s₀ steps).map (Reply.mapNames (.rename f)) :=
  limitedReplies_mapNames g (fun _ => rfl) id steps
    (fun p _ => NameMap.rename_carries f p.1) s₀

/-- **Limits only trim.** While the limit on scope chains changes and keeps the last `m` names at
all times, a program answers what it answers under the limit `m`, on stores and snapshots that have
no more than the last `m` names from elsewhere: all that differs is which names there are before the
last `m` of a scope chain. -/
theorem limits_only_trim (g : Globals U) (m : Nat) (s₀ : ContextStore U)
    (steps : List (Nat × Op U)) (h : ∀ p ∈ steps, Allows m p.1) :
    limitedReplies g (s₀.mapNames (.trim m))
        (steps.map (Prod.map (fun _ => m) (Op.mapNames (.trim m)))) =
      (limitedReplies g s₀ steps).map (Reply.mapNames (.trim m)) :=
  limitedReplies_mapNames g (fun _ => rfl) (fun _ => m) steps
    (fun p hp => NameMap.trim_carries (h p hp)) s₀

/-- Three scopes, handed to the same thread as a snapshot, while the limit is 3, 2 or none. -/
def climb : List (Nat × Op U) :=
  [(3, .pushScope "a"), (0, .pushScope "b"), (2, .pushScope "c"), (0, .capture),
    (2, .attachSnapshot 0), (0, .scopeChain)]

theorem limits_only_trim_climb :
    let replies := limitedReplies (.withRegistry (.empty : Registry primitiveTypes)) .new climb
    replies[5]? = some (.names ["a", "b", "c"]) ∧
      (replies.map (Reply.mapNames (.trim 2)))[5]? = some (.names ["b", "c"]) := by
  refine ⟨rfl, ?_⟩
  rw [← limits_only_trim _ 2 .new climb (by simp [climb, Allows])]
  rfl

end Transparency

end DContext
