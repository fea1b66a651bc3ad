import DContext.Future.Schedule
import DContext.Thread.Guards

/-!
# Cancelling a wrapped future

A wrapped future that is dropped between two polls drops the guards that its inner future holds.
No swap surrounds this: they act on whatever the dropping thread has in its cell. An attach guard
replaces that content, a scope guard pops it to its own depth, and all that matters in the end is
the last attach guard and the least depth after it.

## Main definitions

* `Held U`, `HeldOp U`: a guard that is held across polls, and what a poll does
* `afterPolls`: a task after its polls
* `dropAll`: dropping the guards of a cancelled task, in some order
* `SparesAmbient ambient guards`: no guard reaches the store in the cell

## Main results

* `afterPolls_sound`: what is known of the guards of a task
* `dropAll_eq`: what dropping leaves
* `cancel_spares`: when a cancelled task leaves the cell as it was
* `cancel_pops_ambient`: a scope guard that pops a scope of the thread
-/

namespace DContext

open Overlay ContextStore

variable {U : TypeUniverse}

namespace Cancellation

/-- A guard that the inner future of a task holds. -/
inductive Held (U : TypeUniverse)
  | scope (guard : ScopeGuard)
  | attach (guard : AttachGuard U)

/-- Dropping a guard. -/
def Held.drop (shared : List (ScopeNode U) → Bool) : Held U → Cell U → Cell U
  | .scope guard, cell => guard.drop shared cell
  | .attach guard, _ => guard.drop

/-- What the inner future does in a poll. The guard of a push or an attach is held until a drop,
which names it by its place among those held. -/
inductive HeldOp (U : TypeUniverse)
  | setContextVariable (t : U.TypeId) (key : Key) (value : U.El t)
  | mergeWith (source : ContextStore U)
  | clear
  | pushScope (name : String)
  | attachStore (store : RootStore U)
  | attachSnapshot (snap : ContextSnapshot U)
  | drop (i : Nat) (shared : List (ScopeNode U) → Bool)

/-- One operation: the guards held and the content of the cell after it. -/
def HeldOp.exec (g : Globals U) (guards : List (Held U)) (cell : Cell U) :
    HeldOp U → List (Held U) × Cell U
  | .setContextVariable t key value => (guards, Thread.setContextVariable t key value cell)
  | .mergeWith source => (guards, Thread.mergeWith source cell)
  | .clear => (guards, Thread.clear cell)
  | .pushScope name =>
    let r := Thread.pushScope g name cell
    (guards ++ [.scope r.2], r.1)
  | .attachStore store =>
    let r := Thread.attachStore store.store cell
    (guards ++ [.attach r.2], r.1)
  | .attachSnapshot snap =>
    let r := Thread.attachSnapshot g snap cell
    (guards ++ [.attach r.2], r.1)
  | .drop i shared =>
    match guards[i]? with
    | none => (guards, cell)
    | some guard => (guards.eraseIdx i, guard.drop shared cell)

/-- A poll of the inner future in which it does these operations, and stays pending. -/
def innerPoll (g : Globals U) (ops : List (HeldOp U)) :
    Schedule.ReturningPoll (List (Held U)) Unit U := fun guards cell =>
  (.pending, ops.foldl (fun st op => op.exec g st.1 st.2) (guards, cell))

/-- A task after some polls, each with what the inner future does in it, on a thread with some
cell. -/
def afterPolls (g : Globals U) (task : WithContext (List (Held U)) U)
    (polls : List (List (HeldOp U) × Cell U)) : WithContext (List (Held U)) U :=
  polls.foldl
    (fun w poll => (w.poll (Schedule.returning (innerPoll g poll.1)) poll.2).2.1) task

/-- Dropping guards in this order, each with the ownership of the nodes it meets. -/
def dropAll (drops : List (Held U × (List (ScopeNode U) → Bool))) (cell : Cell U) : Cell U :=
  drops.foldl (fun cell d => d.1.drop d.2 cell) cell

/-- The depth to which a guard pops, if it is a scope guard and not the no-op guard. -/
def Held.depth : Held U → Option Nat
  | .scope guard => if guard.expectedDepth = usizeMax then none else some guard.expectedDepth
  | .attach _ => none

/-- The least depth to which one of the guards pops. -/
def leastDepth (guards : List (Held U)) : Option Nat :=
  guards.foldr (fun guard least => guard.depth.merge min least) none

/-- The content of a cell after a pop to this depth, if there is one. -/
def popTo (depth : Option Nat) (cell : Cell U) : Cell U :=
  match depth with
  | none => cell
  | some d => cell.map fun s => (s.popScope (fun _ => false) d).1

/-- The attach guard that is dropped last, with the guards that are dropped after it. -/
def lastAttach : List (Held U) → Option (AttachGuard U × List (Held U))
  | [] => none
  | .scope _ :: rest => lastAttach rest
  | .attach guard :: rest => some ((lastAttach rest).getD (guard, rest))

/-- A guard does not reach the store in a cell: it is a scope guard for a scope deeper than the
store, or the no-op guard. -/
def Held.Spares (ambient : Cell U) : Held U → Prop
  | .scope guard => ∀ s ∈ ambient, guard.expectedDepth = usizeMax ∨ s.depth < guard.expectedDepth
  | .attach _ => False

/-- No guard reaches the store in the cell, so none of them is an attach guard. -/
def SparesAmbient (ambient : Cell U) (guards : List (Held U)) : Prop :=
  ∀ guard ∈ guards, guard.Spares ambient

/-! ## The guards of a task -/

/-- The store in a cell, if there is one, has the shape of the reachable ones. -/
def CellWellFormed (cell : Cell U) : Prop := ∀ s ∈ cell, s.WellFormed

/-- What is known of a guard: a scope guard is not for a root scope, and the content that an attach
guard keeps has the shape of the reachable ones. -/
def Held.Sound : Held U → Prop
  | .scope guard => 2 ≤ guard.expectedDepth
  | .attach guard => CellWellFormed guard.prev

theorem Held.Sound.drop {guard : Held U} (hguard : guard.Sound) {cell : Cell U}
    (hcell : CellWellFormed cell) (shared : List (ScopeNode U) → Bool) :
    CellWellFormed (guard.drop shared cell) := by
  cases guard with
  | attach guard => exact hguard
  | scope guard =>
    cases cell with
    | none =>
      rw [Held.drop, Thread.scopeGuard_drop_none]
      exact hcell
    | some s =>
      rw [Held.drop, Thread.scopeGuard_drop]
      rintro s' ⟨rfl⟩
      split_ifs
      · exact hcell s rfl
      · exact (hcell s rfl).popScope shared _

/-- One operation keeps the guards sound and the store in shape. -/
theorem exec_sound (g : Globals U) {guards : List (Held U)} {cell : Cell U}
    (hguards : ∀ guard ∈ guards, guard.Sound) (hcell : CellWellFormed cell) (op : HeldOp U) :
    (∀ guard ∈ (op.exec g guards cell).1, guard.Sound) ∧
      CellWellFormed (op.exec g guards cell).2 := by
  have hadd : ∀ guard' : Held U, guard'.Sound → ∀ guard ∈ guards ++ [guard'], guard.Sound := by
    intro guard' hguard' guard hmem
    rcases List.mem_append.mp hmem with hmem | hmem
    · exact hguards guard hmem
    · obtain rfl := List.mem_singleton.mp hmem
      exact hguard'
  have hmap : ∀ f : ContextStore U → ContextStore U, (∀ s, s.WellFormed → (f s).WellFormed) →
      CellWellFormed (tryApply cell fun s => (f s, ())).1 := by
    intro f hf
    cases cell with
    | none => exact hcell
    | some s =>
      rintro s' ⟨rfl⟩
      exact hf s (hcell s rfl)
  cases op with
  | setContextVariable t key value => exact ⟨hguards, hmap _ fun s hs => hs.setValue key ⟨t, value⟩⟩
  | mergeWith source => exact ⟨hguards, hmap _ fun s hs => hs.mergeWith source⟩
  | clear => exact ⟨hguards, hmap _ fun _ _ => .new⟩
  | pushScope name =>
    cases cell with
    | none => exact ⟨hadd _ (by decide : 2 ≤ ScopeGuard.noop.expectedDepth), hcell⟩
    | some s =>
      have hs := hcell s rfl
      simp only [HeldOp.exec, Thread.pushScope_some]
      refine ⟨hadd _ (Nat.succ_le_succ hs.depth_pos), ?_⟩
      rintro s' ⟨rfl⟩
      exact hs.pushScope g.registry (some name)
  | attachStore store =>
    refine ⟨hadd _ hcell, ?_⟩
    rintro s' ⟨rfl⟩
    exact store.wf
  | attachSnapshot snap =>
    refine ⟨hadd _ hcell, ?_⟩
    rintro s' ⟨rfl⟩
    exact (storeFromSnapshot_reachable snap g.registry).wellFormed
  | drop i shared =>
    simp only [HeldOp.exec]
    split
    · exact ⟨hguards, hcell⟩
    · next guard hi =>
      refine ⟨fun guard' hmem => hguards guard' (List.mem_of_mem_eraseIdx hmem), ?_⟩
      exact (hguards guard (List.mem_of_getElem? hi)).drop hcell shared

/-- **The guards of a task** are sound after any number of polls, on any threads. -/
theorem afterPolls_sound (g : Globals U) {task : WithContext (List (Held U)) U}
    (hguards : ∀ guard ∈ task.inner, guard.Sound) (hstore : CellWellFormed task.store)
    (polls : List (List (HeldOp U) × Cell U)) :
    ∀ guard ∈ (afterPolls g task polls).inner, guard.Sound := by
  have hops : ∀ (ops : List (HeldOp U)) (guards : List (Held U)) (cell : Cell U),
      (∀ guard ∈ guards, guard.Sound) → CellWellFormed cell →
      (∀ guard ∈ (ops.foldl (fun st op => op.exec g st.1 st.2) (guards, cell)).1, guard.Sound) ∧
        CellWellFormed (ops.foldl (fun st op => op.exec g st.1 st.2) (guards, cell)).2 := by
    intro ops
    induction ops with
    | nil => exact fun guards cell hguards hcell => ⟨hguards, hcell⟩
    | cons op ops ih =>
      intro guards cell hguards hcell
      obtain ⟨hguards', hcell'⟩ := exec_sound g hguards hcell op
      exact ih _ _ hguards' hcell'
  unfold afterPolls
  induction polls generalizing task with
  | nil => exact hguards
  | cons poll polls ih =>
    -- the poll works on the store of the task, whatever its thread has in the cell
    obtain ⟨hguards', hstore'⟩ := hops poll.1 task.inner task.store hguards hstore
    exact ih hguards' hstore'

/-! ## What dropping leaves -/

/-- A scope guard pops to its depth. -/
theorem scope_drop_eq (guard : ScopeGuard) {cell : Cell U}
    (hcell : CellWellFormed cell) (shared : List (ScopeNode U) → Bool) :
    guard.drop shared cell = popTo (Held.scope guard : Held U).depth cell := by
  cases cell with
  | none =>
    rw [Thread.scopeGuard_drop_none]
    unfold popTo
    split <;> rfl
  | some s =>
    rw [Thread.scopeGuard_drop, Held.depth]
    split_ifs
    · rfl
    · exact congrArg some (popScope_shared shared _ (hcell s rfl) _)

/-- Two pops in a row. -/
theorem popTo_popTo {d d' : Option Nat} (hd : ∀ e ∈ d, 1 < e) (hd' : ∀ e ∈ d', 1 < e)
    {cell : Cell U} (hcell : CellWellFormed cell) :
    popTo d' (popTo d cell) = popTo (d.merge min d') cell := by
  cases cell with
  | none => cases d <;> cases d' <;> rfl
  | some s =>
    cases d with
    | none => cases d' <;> rfl
    | some e =>
      cases d' with
      | none => rfl
      | some e' =>
        exact congrArg some (popScope_popScope _ _ _ (hcell s rfl) (hd e rfl) (hd' e' rfl))

theorem Held.Sound.one_lt_depth {guard : Held U} (h : guard.Sound) : ∀ e ∈ guard.depth, 1 < e := by
  intro e he
  cases guard with
  | attach guard => cases he
  | scope guard =>
    rw [Held.depth] at he
    split_ifs at he
    · cases he
    · obtain rfl := Option.some.inj he
      exact h

/-- All depths are above `n` exactly when the least one is. -/
theorem lt_leastDepth_iff (n : Nat) (guards : List (Held U)) :
    (∀ e ∈ leastDepth guards, n < e) ↔ ∀ guard ∈ guards, ∀ e ∈ guard.depth, n < e := by
  induction guards with
  | nil => simp [leastDepth]
  | cons guard guards ih =>
    rw [List.forall_mem_cons, ← ih]
    show (∀ e ∈ guard.depth.merge min (leastDepth guards), n < e) ↔ _
    cases guard.depth <;> cases leastDepth guards <;> simp [Option.merge]

/-- **What dropping leaves**: the content that the last attach guard puts back, or that of the cell
when there is none, popped to the least depth of the scope guards that come after. -/
theorem dropAll_eq (drops : List (Held U × (List (ScopeNode U) → Bool)))
    (hguards : ∀ guard ∈ drops.map Prod.fst, guard.Sound) {cell : Cell U}
    (hcell : CellWellFormed cell) :
    dropAll drops cell =
      match lastAttach (drops.map Prod.fst) with
      | none => popTo (leastDepth (drops.map Prod.fst)) cell
      | some (attached, later) => popTo (leastDepth later) attached.prev := by
  induction drops generalizing cell with
  | nil => rfl
  | cons d drops ih =>
    obtain ⟨guard, shared⟩ := d
    rw [List.map_cons, List.forall_mem_cons] at hguards
    have hrest := ih hguards.2 (hguards.1.drop hcell shared)
    show dropAll drops (guard.drop shared cell) = _
    rw [hrest, List.map_cons]
    cases guard with
    | scope guard =>
      rw [lastAttach]
      cases hlast : lastAttach (drops.map Prod.fst) with
      | some r => rfl
      | none =>
        show popTo (leastDepth (drops.map Prod.fst)) (guard.drop shared cell) = _
        rw [scope_drop_eq guard hcell, popTo_popTo _ _ hcell]
        · rfl
        · exact hguards.1.one_lt_depth
        · exact (lt_leastDepth_iff 1 _).mpr fun guard' hmem => (hguards.2 guard' hmem).one_lt_depth
    | attach guard =>
      rw [lastAttach]
      cases hlast : lastAttach (drops.map Prod.fst) with
      | some r => rfl
      | none => rfl

/-- With an attach guard among them, the drops leave the same in every cell. -/
theorem dropAll_of_attach (drops : List (Held U × (List (ScopeNode U) → Bool)))
    (hguards : ∀ guard ∈ drops.map Prod.fst, guard.Sound) {attached : AttachGuard U}
    (hattach : .attach attached ∈ drops.map Prod.fst) {cell cell' : Cell U}
    (hcell : CellWellFormed cell) (hcell' : CellWellFormed cell') :
    dropAll drops cell = dropAll drops cell' := by
  have hlast : ∀ guards : List (Held U), .attach attached ∈ guards →
      ∃ last, lastAttach guards = some last := by
    intro guards hmem
    induction guards with
    | nil => cases hmem
    | cons guard guards ih =>
      cases guard with
      | attach other => exact ⟨_, rfl⟩
      | scope scope => exact ih (List.mem_of_ne_of_mem (by simp) hmem)
  obtain ⟨last, hlast⟩ := hlast _ hattach
  rw [dropAll_eq drops hguards hcell, dropAll_eq drops hguards hcell', hlast]

/-- A scope guard spares the cell exactly when it pops to no depth that the store reaches. -/
theorem spares_iff {ambient : Cell U} {guard : Held U} (hscope : ∃ scope, guard = .scope scope) :
    guard.Spares ambient ↔ ∀ s ∈ ambient, ∀ d ∈ guard.depth, s.depth < d := by
  obtain ⟨scope, rfl⟩ := hscope
  refine forall_congr' fun s => forall_congr' fun _ => ?_
  show scope.expectedDepth = usizeMax ∨ s.depth < scope.expectedDepth ↔
    ∀ d ∈ (if scope.expectedDepth = usizeMax then none else some scope.expectedDepth), s.depth < d
  split_ifs with hnoop <;> simp [hnoop]

theorem lastAttach_eq_none {guards : List (Held U)}
    (hscope : ∀ guard ∈ guards, ∃ scope, guard = .scope scope) : lastAttach guards = none := by
  induction guards with
  | nil => rfl
  | cons guard guards ih =>
    obtain ⟨⟨scope, rfl⟩, hrest⟩ := List.forall_mem_cons.mp hscope
    exact ih hrest

/-- A pop that changes nothing is one to a scope deeper than the store. -/
theorem popTo_eq_self_iff {depth : Option Nat} (hdepth : ∀ d ∈ depth, 1 < d) {cell : Cell U}
    (hcell : CellWellFormed cell) :
    popTo depth cell = cell ↔ ∀ s ∈ cell, ∀ d ∈ depth, s.depth < d := by
  cases cell with
  | none => cases depth <;> simp [popTo]
  | some s =>
    cases depth with
    | none => simp [popTo]
    | some d =>
      have hself := popScope_eq_self_iff (fun _ => false) (hcell s rfl) (hdepth d rfl)
      simpa [popTo] using hself

/-- **When a cancelled task leaves the cell as it was**: when none of its guards reaches the store
in the cell, in whatever order they are dropped, and with scope guards alone only then. -/
theorem cancel_spares (g : Globals U) (store : Option (ContextStore U))
    (hstore : ∀ s ∈ store, s.Reachable) (polls : List (List (HeldOp U) × Cell U))
    (ambient : Cell U) (hambient : ∀ s ∈ ambient, s.Reachable)
    (drops : List (Held U × (List (ScopeNode U) → Bool)))
    (hdrops : (drops.map Prod.fst).Perm (afterPolls g ⟨[], store⟩ polls).inner) :
    (SparesAmbient ambient (drops.map Prod.fst) → dropAll drops ambient = ambient) ∧
      ((∀ guard ∈ drops.map Prod.fst, ∃ scope, guard = .scope scope) →
        dropAll drops ambient = ambient → SparesAmbient ambient (drops.map Prod.fst)) := by
  have hcell : CellWellFormed ambient := fun s hs => (hambient s hs).wellFormed
  have hguards : ∀ guard ∈ drops.map Prod.fst, guard.Sound := by
    intro guard hmem
    have hmem' : guard ∈ (afterPolls g ⟨[], store⟩ polls).inner := hdrops.subset hmem
    exact afterPolls_sound g (fun guard h => absurd h List.not_mem_nil)
      (fun s hs => (hstore s hs).wellFormed) polls guard hmem'
  have hscoped : (∀ guard ∈ drops.map Prod.fst, ∃ scope, guard = .scope scope) →
      (dropAll drops ambient = ambient ↔ SparesAmbient ambient (drops.map Prod.fst)) := by
    intro hscope
    have hone := (lt_leastDepth_iff 1 (drops.map Prod.fst)).mpr fun guard hmem =>
      (hguards guard hmem).one_lt_depth
    have hspares : SparesAmbient ambient (drops.map Prod.fst) ↔ ∀ guard ∈ drops.map Prod.fst,
        ∀ s ∈ ambient, ∀ d ∈ guard.depth, s.depth < d :=
      forall_congr' fun guard => forall_congr' fun hmem => spares_iff (hscope guard hmem)
    rw [dropAll_eq drops hguards hcell, lastAttach_eq_none hscope]
    show popTo (leastDepth (drops.map Prod.fst)) ambient = ambient ↔ _
    rw [popTo_eq_self_iff hone hcell, hspares]
    simp only [lt_leastDepth_iff]
    exact ⟨fun h guard hmem s hs => h s hs guard hmem, fun h s hs guard hmem => h guard hmem s hs⟩
  refine ⟨fun hspares => ?_, fun hscope => (hscoped hscope).mp⟩
  refine (hscoped fun guard hmem => ?_).mpr hspares
  cases guard with
  | scope scope => exact ⟨scope, rfl⟩
  | attach guard => exact (hspares _ hmem).elim

/-- A task that has pushed one scope, and holds its guard. -/
def scopedTask : WithContext (List (Held primitiveTypes)) primitiveTypes :=
  afterPolls (.withRegistry .empty) ⟨[], some .new⟩ [([.pushScope "task"], none)]

/-- It can be cancelled above a root scope. -/
theorem cancel_spares_root :
    dropAll [(Held.scope ⟨2⟩, fun _ => false)] (some .new : Cell primitiveTypes) = some .new := by
  refine (cancel_spares (.withRegistry .empty) (some .new) ?_ [([.pushScope "task"], none)]
    (some .new) ?_ [(.scope ⟨2⟩, fun _ => false)] (.refl _)).1 ?_
  · rintro s ⟨rfl⟩
    exact .new
  · rintro s ⟨rfl⟩
    exact .new
  · intro guard hmem
    obtain rfl := List.mem_singleton.mp hmem
    rintro s ⟨rfl⟩
    exact .inr (by decide)

/-- Above a thread that is in a scope of its own, cancelling it pops this scope. -/
theorem cancel_pops_ambient :
    scopedTask.inner = [.scope ⟨2⟩] ∧
      ∃ request : ContextStore primitiveTypes, request.Reachable ∧
        request.scopeChain 64 = ["request"] ∧
        dropAll [(.scope ⟨2⟩, fun _ => false)] (some request) = some .new ∧
        dropAll [(.scope ⟨2⟩, fun _ => false)] (some request) ≠ some request := by
  refine ⟨rfl, (ContextStore.new.pushScope .empty (some "request")).1, .pushScope _ _ .new, rfl,
    rfl, ?_⟩
  intro h
  have hdepth := congrArg (Option.map ContextStore.depth) h
  exact absurd hdepth (by decide)

end Cancellation

end DContext
