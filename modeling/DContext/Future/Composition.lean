import DContext.Future.WithContext

/-!
# Composing `scope` with `attach`

`fut.scope(name)` forks the store of the thread that builds the future, at that moment. A wrapper
put around it later swaps its own store in first, and the inner wrapper then swaps the fork over
it: the future reads the fork, whatever was attached around it.

## Main definitions

* `scopedPath ambient`, `scopedValue ambient key`: what a fork of a cell shows
* `firstSeen`: the content of the cell at the first poll of `fut.scope(name).attach(snap)`
* `AgreesWith g ambient snap`: the thread's own scopes show what the snapshot shows

## Main results

* `firstSeen_eq`: the future is polled on the fork
* `firstSeen_reads_snapshot_iff`: when it reads the snapshot all the same
-/

namespace DContext

open Overlay

variable {U : TypeUniverse} {F O : Type}

/-- The value of a key in the own scopes of the store in the cell. -/
def scopedValue (cell : Cell U) (key : Key) : Option (ContextValue U) :=
  cell.bind fun s => layered (s.ownFrames.map Frame.values) key

/-- The remote chain and the own scope names of the store in the cell. -/
def scopedPath (cell : Cell U) : List String :=
  (cell.map fun s => s.remoteChain ++ namesOf s.ownFrames).getD []

/-- The content of the cell when `fut` is polled for the first time, inside the first poll of
`fut.scope(name).attach(snap)`. The wrapped future was built on a thread with the cell `ambient`
and is polled on one with the cell `cell`. -/
def firstSeen (g : Globals U) (innerPoll : PollFn F O U) (fut : F) (name : String)
    (ambient : Cell U) (snap : ContextSnapshot U) (cell : Cell U) : Cell U :=
  let composed := Future.attach g (Future.scope g (⟨fut, []⟩ : Observed F O U) name ambient) snap
  let polled := (composed.poll (WithContext.poll (observe innerPoll)) cell).2.1
  (polled.inner.inner.log.head?.map Prod.fst).join

/-- **The future is polled on the fork** of the store it was built under, with the new scope. -/
theorem firstSeen_eq (g : Globals U) (innerPoll : PollFn F O U) (fut : F) (name : String)
    (ambient : Cell U) (snap : ContextSnapshot U) (cell : Cell U) :
    firstSeen g innerPoll fut name ambient snap cell =
      some ((Thread.fork ambient).pushScope g.registry (some name)).1 := by
  -- the outer wrapper's store is in the cell only until the inner wrapper swaps
  unfold firstSeen Future.attach Future.scope Future.withStore WithContext.poll
    WithContext.swapIn WithContext.swapOut observe
  dsimp only
  rcases innerPoll fut _ with ⟨exit, inner, left⟩
  cases exit <;> rfl

theorem getValue_fork {cell : Cell U} (h : ∀ s ∈ cell, s.Reachable) (key : Key) :
    (Thread.fork cell).getValue key = scopedValue cell key := by
  cases cell with
  | none => rfl
  | some s =>
    rw [Thread.fork_some, ContextStore.getValue_eq_layered]
    have hwf := (h s rfl).wellFormed.forkChild
    rw [hwf.visibleMaps_eq, ContextStore.ownFrames_forkChild,
      ContextStore.inheritedFrames_forkChild, List.map_append, layered_append]
    simp [scopedValue]

theorem scopeChain_pushScope_fork {cell : Cell U} (h : ∀ s ∈ cell, s.Reachable)
    (registry : Registry U) (name : String) (maxLen : Nat) :
    ((Thread.fork cell).pushScope registry (some name)).1.scopeChain maxLen =
      keepLast maxLen (scopedPath cell ++ [name]) := by
  have hwf := (Thread.fork_reachable h).wellFormed
  cases cell with
  | none =>
    rw [(hwf.pushScope registry (some name)).scopeChain_eq]
    rfl
  | some s =>
    rw [(hwf.pushScope registry (some name)).scopeChain_eq, Thread.fork_some]
    have hdepth : s.forkChild.depth ≤ maxScopeDepth := (by decide : 1 ≤ maxScopeDepth)
    obtain ⟨hinherited, hremote⟩ :=
      ContextStore.env_pushScope registry (some name) s.forkChild
    rw [hinherited, hremote, ContextStore.ownFrames_pushScope_of_le registry (some name) hdepth,
      ContextStore.ownFrames_forkChild, ContextStore.inheritedFrames_forkChild]
    simp [scopedPath, ContextStore.forkChild]

/-- The own scopes of the thread show what the snapshot shows: the values that the registry
accepts, and the scope chain where it reaches below the new scope. -/
structure AgreesWith (g : Globals U) (ambient : Cell U) (snap : ContextSnapshot U) : Prop where
  values : ∀ key, scopedValue ambient key =
    (snap.values.lookup key).filter fun v =>
      g.registry.isValidValue key v && !g.registry.isLocalKey key
  path :
    if g.maxScopeChainLen = 0 then scopedPath ambient = snap.scopeChain
    else (scopedPath ambient).rtake (g.maxScopeChainLen - 1) =
      snap.scopeChain.rtake (g.maxScopeChainLen - 1)

/-- **What a future composed by `scope` and `attach` reads**: the snapshot's values, and its scope
chain with the new scope, exactly when the own scopes of the thread that built it showed those
already. -/
theorem firstSeen_reads_snapshot_iff (g : Globals U) (innerPoll : PollFn F O U) (fut : F)
    (name : String) {ambient : Cell U} (hambient : ∀ s ∈ ambient, s.Reachable)
    (snap : ContextSnapshot U) (cell : Cell U) :
    ((∀ key, ((firstSeen g innerPoll fut name ambient snap cell).bind (·.getValue key)) =
          (storeFromSnapshotWithRegistry snap g.registry).getValue key) ∧
        Thread.scopeChain g (firstSeen g innerPoll fut name ambient snap cell) =
          keepLast g.maxScopeChainLen (snap.scopeChain ++ [name])) ↔
      AgreesWith g ambient snap := by
  have hwf := (Thread.fork_reachable hambient).wellFormed
  have hvalue : ∀ key, ((firstSeen g innerPoll fut name ambient snap cell).bind (·.getValue key)) =
      scopedValue ambient key := by
    intro key
    rw [firstSeen_eq, Option.bind_some, hwf.getValue_pushScope, getValue_fork hambient]
  have hchain : Thread.scopeChain g (firstSeen g innerPoll fut name ambient snap cell) =
      keepLast g.maxScopeChainLen (scopedPath ambient ++ [name]) := by
    rw [firstSeen_eq]
    exact scopeChain_pushScope_fork hambient g.registry name g.maxScopeChainLen
  simp only [hvalue, hchain, getValue_storeFromSnapshot]
  rw [keepLast_append_inj, List.length_singleton]
  constructor
  · rintro ⟨hvalues, hpath⟩
    exact ⟨hvalues, hpath⟩
  · intro h
    exact ⟨h.values, h.path⟩

/-- A registry of one number. -/
def userRegistry : Registry primitiveTypes := ⟨buildMap [.register PrimitiveType.u64 "user" []]⟩

/-- A thread that has set the number in a scope. -/
def ambientOfUser : Cell primitiveTypes :=
  some ((ContextStore.new.pushScope userRegistry (some "request")).1.setValue "user" (u64Value 7))

/-- The number and the scope in a snapshot. -/
def snapshotOfUser : ContextSnapshot primitiveTypes :=
  ⟨Finmap.insert "user" (u64Value 7) ∅, ["request"]⟩

/-- A thread reads the snapshot when it has set what the snapshot holds itself. -/
theorem firstSeen_reads_snapshot_user :
    (∀ key, ((firstSeen (.withRegistry userRegistry) panicking () "handler" ambientOfUser
          snapshotOfUser none).bind (·.getValue key)) =
        (storeFromSnapshotWithRegistry snapshotOfUser userRegistry).getValue key) ∧
      Thread.scopeChain (.withRegistry userRegistry) (firstSeen (.withRegistry userRegistry)
          panicking () "handler" ambientOfUser snapshotOfUser none) = ["request", "handler"] := by
  have hreach : ∀ s ∈ ambientOfUser, s.Reachable := by
    rintro s ⟨rfl⟩
    exact (ContextStore.Reachable.new.pushScope userRegistry (some "request")).setValue "user"
      (u64Value 7)
  refine (firstSeen_reads_snapshot_iff (.withRegistry userRegistry) panicking () "handler" hreach
    snapshotOfUser none).mpr ⟨fun key => ?_, rfl⟩
  show layered [Finmap.insert "user" (u64Value 7) ∅, ∅] key =
    ((Finmap.insert "user" (u64Value 7) (∅ : ValueMap primitiveTypes)).lookup key).filter _
  by_cases hkey : key = "user"
  · subst hkey
    rfl
  · simp [layered, Finmap.lookup_insert_of_ne _ hkey]

/-- A thread whose store holds one value. -/
def ambientOfOne : Cell primitiveTypes := some (ContextStore.new.setValue "user" (u64Value 7))

/-- A future built on that thread reads its value, which the attached empty snapshot does not
hold. -/
theorem firstSeen_reads_ambient :
    (∀ s ∈ ambientOfOne, s.Reachable) ∧
      ((firstSeen (.withRegistry .empty) panicking () "handler" ambientOfOne .empty none).bind
          (·.getValue "user")) = some (u64Value 7) ∧
      ¬ ∀ key, ((firstSeen (.withRegistry .empty) panicking () "handler" ambientOfOne .empty
          none).bind (·.getValue key)) =
        (storeFromSnapshotWithRegistry .empty Registry.empty).getValue key := by
  have hseen : ((firstSeen (.withRegistry .empty) panicking () "handler" ambientOfOne .empty
      none).bind (·.getValue "user")) = some (u64Value 7) := rfl
  have hempty : (storeFromSnapshotWithRegistry .empty Registry.empty).getValue "user" =
      (none : Option (ContextValue primitiveTypes)) := rfl
  refine ⟨?_, hseen, ?_⟩
  · rintro s ⟨rfl⟩
    exact .setValue "user" (u64Value 7) .new
  · intro h
    have hread := h "user"
    rw [hseen, hempty] at hread
    cases hread

end DContext
