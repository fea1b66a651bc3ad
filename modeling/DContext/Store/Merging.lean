import DContext.Store.Fork
import DContext.System.Run

/-!
# Merging one store into another

A merge writes everything that the source shows into the active scope. That is undone with the
scope, and it does not tell what the source has set from what it inherits. So a child that is
merged back into the store it was forked from brings the values of the fork along.

## Main definitions

* `InPushedScope s`: the active scope is one that a push has opened
* `SetOp U`, `Forked U`: writes to a store and to its child, in some order, and the two stores
* `lastSet side key ops`: the last value that one side has set under a key
* `FoldsBack s ops`: merging the child back gives its writes and no other change

## Main results

* `merge_overlays`: what a merge shows, what it changes, and that a pop undoes it
* `foldsBack_iff`: when the child can be merged back without loss
-/

namespace DContext

open Overlay StepSystem

variable {U : TypeUniverse}

namespace ContextStore

/-! ## One merge -/

/-- The active scope is a real one that a push has opened. -/
structure InPushedScope (s : ContextStore U) : Prop where
  chain : s.chain ≠ []
  depth : 1 < s.depth
  real : s.depth ≤ maxScopeDepth + 1

theorem getValue_overwrite (s : ContextStore U) (n : ValueMap U) (key : Key) :
    (s.overwrite n).getValue key = (n.lookup key).or (s.getValue key) := by
  rw [getValue_eq_layered, getValue_eq_layered, overwrite, visibleMaps, visibleMaps, layered_cons,
    layered_cons, Map.lookup_extend, Option.or_assoc]

theorem getValue_setValue (s : ContextStore U) (key key' : Key) (value : ContextValue U) :
    (s.setValue key value).getValue key' = if key = key' then some value else s.getValue key' := by
  rw [setValue_eq_overwrite, getValue_overwrite]
  by_cases h : key = key'
  · subst h
    simp
  · rw [if_neg h, Finmap.lookup_eq_none.mpr (by simpa using Ne.symm h), Option.none_or]

/-- A merge shows what the source shows, and below that what the store has shown. -/
theorem getValue_mergeWith (s source : ContextStore U) (key : Key) :
    (s.mergeWith source).getValue key = (source.getValue key).or (s.getValue key) := by
  rw [mergeWith_eq_overwrite, getValue_overwrite, lookup_collectValues]

/-- The store that the loop of `pop_scope` leaves depends on neither the ownership of the nodes nor
the garbage so far. -/
theorem popLoop_fst_eq (shared shared' : List (ScopeNode U) → Bool) (e : Nat)
    (ns : List (ScopeNode U)) :
    ∀ (s : ContextStore U) (old old' : Option (ValueMap U)),
      (popLoop shared e ns s old).1 = (popLoop shared' e ns s old').1 := by
  induction ns with
  | nil => exact fun s old old' => rfl
  | cons n parent ih =>
    intro s old old'
    rw [popLoop, popLoop, restoreShared_eq, ite_self, ite_self]
    split_ifs
    · exact ih _ _ _
    · rfl

/-- A pop of a pushed scope restores the scope below, whatever was written into this one. -/
theorem popScope_overwrite {s : ContextStore U} (h : s.InPushedScope) (n : ValueMap U)
    (shared shared' : List (ScopeNode U) → Bool) {e : Nat} (he : 1 < e) (hle : e ≤ s.depth) :
    ((s.overwrite n).popScope shared e).1 = (s.popScope shared' e).1 := by
  obtain ⟨hchain, -, hreal⟩ := h
  have hdead : popDead e s.depth = s.depth := by
    rw [popDead_eq, if_neg (by omega)]
  have hstale : ¬ (s.depth < e ∨ e ≤ 1) := by omega
  have hreach : s.depth ≥ e ∧ s.depth > 1 := by omega
  have hdepth : (s.overwrite n).depth = s.depth := rfl
  have hnodes : (s.overwrite n).chain = s.chain := rfl
  rw [popScope, popScope, hdepth, if_neg hstale, if_neg hstale, hnodes]
  dsimp only
  cases hc : s.chain with
  | nil => exact absurd hc hchain
  | cons node parent =>
    rw [popLoop, popLoop, hdepth, hdead, if_pos hreach, if_pos hreach, restoreShared_eq,
      restoreShared_eq, ite_self, ite_self]
    exact popLoop_fst_eq shared shared' e parent (restoreOwned node parent s) _ _

/-- **Bulk collection agrees with lookup, and a merge overlays it**: for all stores, a merge shows
the source over the destination, changes the active scope alone, and goes away with a pushed
scope. -/
theorem merge_overlays (dst src : ContextStore U) :
    (∀ key value,
        src.collectValues.lookup key = some value ↔ src.getValue key = some value) ∧
      (∀ key, (dst.mergeWith src).getValue key = (src.getValue key).or (dst.getValue key)) ∧
      dst.mergeWith src = { dst with currentValues := (dst.mergeWith src).currentValues } ∧
      (dst.InPushedScope → ∀ shared shared',
        ((dst.mergeWith src).popScope shared dst.depth).1 =
          (dst.popScope shared' dst.depth).1) := by
  refine ⟨fun key value => ?_, getValue_mergeWith dst src, rfl, fun h shared shared' => ?_⟩
  · rw [lookup_collectValues]
  · exact popScope_overwrite h src.collectValues shared shared' h.depth (Nat.le_refl dst.depth)

/-- A store with one value, in a scope that has set it anew. -/
def inWork : ContextStore primitiveTypes :=
  ((new.setValue "user" (u64Value 7)).pushScope .empty (some "work")).1.setValue "user" (u64Value 8)

/-- What is merged into the scope goes away with it. -/
theorem merge_overlays_inWork :
    ((inWork.mergeWith (new.setValue "user" (u64Value 9))).popScope (fun _ => true) 2).1 =
      (inWork.popScope (fun _ => false) 2).1 :=
  (merge_overlays inWork (new.setValue "user" (u64Value 9))).2.2.2
    ⟨by decide, by decide, by decide⟩ (fun _ => true) fun _ => false

end ContextStore

/-! ## A store and its child -/

/-- The two stores after a fork. -/
inductive Side
  | parent
  | child
  deriving DecidableEq, Repr

/-- A `set_value` on one side. -/
structure SetOp (U : TypeUniverse) where
  side : Side
  key : Key
  value : ContextValue U

/-- A store and the child that was forked from it. -/
structure Forked (U : TypeUniverse) where
  parent : ContextStore U
  child : ContextStore U

namespace Forked

/-- The fork of a store. -/
def start (s : ContextStore U) : Forked U := ⟨s, s.forkChild⟩

def store (p : Forked U) : Side → ContextStore U
  | .parent => p.parent
  | .child => p.child

/-- The two stores as a step system. -/
def step (p : Forked U) (op : SetOp U) : Forked U × Unit :=
  match op.side with
  | .parent => ({ p with parent := p.parent.setValue op.key op.value }, ())
  | .child => ({ p with child := p.child.setValue op.key op.value }, ())

/-- The two stores after some writes, in the order in which they happen. -/
def after (s : ContextStore U) (ops : List (SetOp U)) : Forked U :=
  (run step (start s) ops).1

/-- The child merged into its parent. -/
def merged (p : Forked U) : ContextStore U := p.parent.mergeWith p.child

/-- The last value that one side has set under a key. -/
def lastSet (side : Side) (key : Key) (ops : List (SetOp U)) : Option (ContextValue U) :=
  (ops.filterMap fun op =>
    if op.side = side ∧ op.key = key then some op.value else none).getLast?

/-- The child's writes come back with the merge, and nothing else of the parent changes. -/
structure FoldsBack (s : ContextStore U) (ops : List (SetOp U)) : Prop where
  set : ∀ key value, lastSet .child key ops = some value →
    (after s ops).merged.getValue key = some value
  unset : ∀ key, lastSet .child key ops = none →
    (after s ops).merged.getValue key = (after s ops).parent.getValue key

theorem lastSet_cons (side : Side) (key : Key) (op : SetOp U) (ops : List (SetOp U)) :
    lastSet side key (op :: ops) = (lastSet side key ops).or
      (if op.side = side ∧ op.key = key then some op.value else none) := by
  unfold lastSet
  by_cases h : op.side = side ∧ op.key = key
  · rw [List.filterMap_cons_some (by rw [if_pos h]), if_pos h, List.getLast?_cons]
    cases List.getLast? _ <;> rfl
  · rw [List.filterMap_cons_none (by rw [if_neg h]), if_neg h, Option.or_none]

/-- One write shows on its own side only. -/
theorem getValue_step (p : Forked U) (op : SetOp U) (side : Side) (key : Key) :
    ((p.step op).1.store side).getValue key =
      if op.side = side ∧ op.key = key then some op.value else (p.store side).getValue key := by
  obtain ⟨side', key', value⟩ := op
  cases side' <;> cases side <;> simp [step, store, ContextStore.getValue_setValue]

/-- **Any interleaving**: a side shows what it has set last, and below that what it has shown at
the fork. -/
theorem getValue_run (ops : List (SetOp U)) (side : Side) (key : Key) :
    ∀ p : Forked U, ((run step p ops).1.store side).getValue key =
      (lastSet side key ops).or ((p.store side).getValue key) := by
  induction ops with
  | nil => exact fun p => rfl
  | cons op ops ih =>
    intro p
    rw [run_cons, ih, getValue_step, lastSet_cons, Option.or_assoc]
    split_ifs <;> rfl

theorem getValue_parent (s : ContextStore U) (ops : List (SetOp U)) (key : Key) :
    (after s ops).parent.getValue key = (lastSet .parent key ops).or (s.getValue key) :=
  getValue_run ops .parent key (start s)

theorem getValue_child (s : ContextStore U) (ops : List (SetOp U)) (key : Key) :
    (after s ops).child.getValue key = (lastSet .child key ops).or (s.forkChild.getValue key) :=
  getValue_run ops .child key (start s)

/-- What a child inherits its parent has shown. -/
theorem getValue_of_forkChild {s : ContextStore U} (h : s.WellFormed) {key : Key}
    {value : ContextValue U} (hchild : s.forkChild.getValue key = some value) :
    s.getValue key = some value := by
  rw [ContextStore.getValue_forkChild h] at hchild
  rw [h.getValue_eq, List.map_append, layered_append, hchild, Option.some_or]

/-- **Folding a child back** loses nothing exactly when no key that the child inherits, and has not
set, has got another value from the parent since the fork. -/
theorem foldsBack_iff {s : ContextStore U} (hs : s.Reachable) (ops : List (SetOp U)) :
    FoldsBack s ops ↔
      ∀ key, lastSet .child key ops = none →
        ∀ inherited, s.forkChild.getValue key = some inherited →
          ∀ update, lastSet .parent key ops = some update → update = inherited := by
  have hmerged : ∀ key, (after s ops).merged.getValue key =
      ((lastSet .child key ops).or (s.forkChild.getValue key)).or
        ((lastSet .parent key ops).or (s.getValue key)) := by
    intro key
    rw [merged, ContextStore.getValue_mergeWith, getValue_child, getValue_parent]
  constructor
  · intro h key hunset inherited hinherited update hupdate
    have hkey := h.unset key hunset
    rw [hmerged, getValue_parent, hunset, hinherited, hupdate] at hkey
    exact (Option.some.inj hkey).symm
  · intro h
    constructor
    · intro key value hset
      rw [hmerged, hset, Option.some_or, Option.some_or]
    · intro key hunset
      rw [hmerged, getValue_parent, hunset, Option.none_or]
      cases hinherited : s.forkChild.getValue key with
      | none => rw [Option.none_or]
      | some inherited =>
        rw [Option.some_or]
        cases hupdate : lastSet .parent key ops with
        | some update => rw [Option.some_or, h key hunset inherited hinherited update hupdate]
        | none =>
          rw [Option.none_or, getValue_of_forkChild hs.wellFormed hinherited]

/-- Sets on both sides: of a key that the child inherits and sets too, and of one that it does not
inherit. -/
def setsOnBothSides : List (SetOp primitiveTypes) :=
  [⟨.parent, "user", u64Value 8⟩, ⟨.child, "user", u64Value 9⟩, ⟨.parent, "role", u64Value 1⟩,
    ⟨.child, "trace", u64Value 2⟩]

/-- The child can be merged back. -/
theorem foldsBack_both :
    FoldsBack (ContextStore.new.setValue "user" (u64Value 7)) setsOnBothSides := by
  have hreach := ContextStore.Reachable.new.setValue "user" (u64Value 7)
  refine (foldsBack_iff hreach _).mpr ?_
  intro key hunset inherited hinherited
  rw [ContextStore.getValue_forkChild hreach.wellFormed] at hinherited
  by_cases hkey : key = "user"
  · subst hkey
    cases hunset
  · simp [ContextStore.ownFrames, ContextStore.new, ContextStore.setValue,
      Finmap.lookup_insert_of_ne _ hkey] at hinherited

/-- The value at the fork, which the child has never set, replaces what the parent has set since. -/
theorem merge_loses_update :
    (ContextStore.new.setValue "user" (u64Value 7)).Reachable ∧
      (after (ContextStore.new.setValue "user" (u64Value 7))
        [⟨.parent, "user", u64Value 8⟩]).merged.getValue "user" = some (u64Value 7) ∧
      ¬ FoldsBack (ContextStore.new.setValue "user" (u64Value 7))
        [⟨.parent, "user", u64Value 8⟩] := by
  have hmerged : (after (ContextStore.new.setValue "user" (u64Value 7))
      [⟨.parent, "user", u64Value 8⟩]).merged.getValue "user" = some (u64Value 7) := rfl
  refine ⟨.setValue _ _ .new, hmerged, ?_⟩
  intro h
  have hkey := h.unset "user" rfl
  rw [hmerged, getValue_parent] at hkey
  have hvalue : u64Value 7 = u64Value 8 := Option.some.inj hkey
  have hnumber : (7 : UInt64) = 8 := eq_of_heq (ContextValue.mk.inj hvalue).2
  exact absurd hnumber (by decide)

end Forked

end DContext
